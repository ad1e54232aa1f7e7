import BundleLedger.Proofs.Bundle.Saving
import BundleLedger.Proofs.Concurrency.Isolation

/-!
# Bundling what is missing, twice

When all missing components were bundled, nothing should be left for a second call. A unit that
committed has all on the ledger that its filters keep (`Idle`), and it stays so: entries are only
added, and while files are added, more directories count as components and each owns less.

So a second call finds work in no component that was there before. But the bundles are files, too,
and one that is called like an entry file and lies below the source root is found as a component of
its own (`newPending`).

**Hypotheses.** The engine lists exactly the names that it was given, it only answers (`LeavesFiles`,
`TracesOnly`), and the ids of the units are distinct.

Results:

* `Idle.later`: what has nothing to bundle has nothing to bundle later.
* `commitAll_idle` and `idle_of_runAll`: after commits that all succeed, their units are idle.
* `commitAll_nothing_iff`: units bundle nothing exactly when all of them are idle.
* `repeated_iff`: when a second call bundles nothing.
* `bundles_own_output`: a call that bundles what the call before has written.
-/
namespace BundleLedger

namespace Concurrency

open Session

variable {ε : Type} {s s' s'' : Session ε} {single : Single} {graph : Graph}

/-! ## Later sessions -/

/-- A later session: entries and files may have been added. -/
structure Later (s s' : Session ε) : Prop where
  options : s'.options = s.options
  engine : s'.engine = s.engine
  sections : ∀ key, key ≠ "bundles" → s'.config.get? key = s.config.get? key
  ledger : ∀ b ∈ s.config.bundles, b ∈ s'.config.bundles
  disk : Disk.Remains s.disk s'.disk

theorem Later.refl (s : Session ε) : Later s s :=
  ⟨rfl, rfl, fun _ _ => rfl, fun _ hb => hb, .refl s.disk⟩

theorem Later.trans (h : Later s s') (h' : Later s' s'') : Later s s'' :=
  ⟨h'.options.trans h.options, h'.engine.trans h.engine,
    fun key hk => (h'.sections key hk).trans (h.sections key hk),
    fun b hb => h'.ledger b (h.ledger b hb), h.disk.trans h'.disk⟩

theorem Later.isBundled (h : Later s s') {m : String} (hm : s.config.isBundled m = true) :
    s'.config.isBundled m = true := by
  obtain ⟨b, hb, hmem⟩ := LoaderConfig.isBundled_iff.1 hm
  exact LoaderConfig.isBundled_iff.2 ⟨b, h.ledger b hb, hmem⟩

theorem Later.hasBundleFor (h : Later s s') {root : String} (hr : s.hasBundleFor root = true) :
    s'.hasBundleFor root = true := by
  obtain ⟨b, hb, hid⟩ := LoaderConfig.hasBundle_iff.1 hr
  refine LoaderConfig.hasBundle_iff.2 ⟨b, h.ledger b hb, ?_⟩
  rw [hid, h.options]

/-- The filters of a single let no more through than before. -/
theorem Later.keeps (h : Later s s') {m : String} (hk : single.keeps s' m = true) :
    single.keeps s m = true := by
  cases single with
  | packages names saveAs =>
    simpa only [Single.keeps, Selection.keptByPackages,
      Selection.packageLocations_congr (h.sections "map" (by decide))] using hk
  | component entry =>
    simp only [Single.keeps, Selection.keptByComponent, Bool.and_eq_true,
      Selection.buildsStyles_congr (h.sections "buildCSS" (by decide)), h.options] at hk ⊢
    obtain ⟨⟨hvendor, hown⟩, hstyle⟩ := hk
    exact ⟨⟨hvendor, Ownership.isOwn_antitone (fun _ _ => h.disk.isComponent) hown⟩, hstyle⟩

/-! ## Units without work -/

/-- Whether all that the filters of a single keep of a graph is on the ledger. -/
def Idle (s : Session ε) (single : Single) (graph : Graph) : Prop :=
  ∀ m ∈ graph.names, single.keeps s m = true → s.config.isBundled m = true

theorem Idle.later (h : Idle s single graph) (hl : Later s s') : Idle s' single graph :=
  fun m hm hk => hl.isBundled (h m hm (hl.keeps hk))

theorem names_eq_nil_iff : graph.names = [] ↔ graph = [] := List.map_eq_nil_iff

theorem idle_iff : Idle s single graph ↔ (single.commit graph).modules s = [] := by
  rw [← names_eq_nil_iff, List.eq_nil_iff_forall_not_mem]
  refine forall_congr' fun m => ?_
  rw [mem_names_commit, ← Bool.not_eq_true]
  tauto

/-! ## The first call -/

theorem compileAndSave_remains (hf : s.engine.LeavesFiles) (root : String) (graph : Graph) :
    Disk.Remains s.disk (s.compileAndSave root graph).2.disk := by
  rw [compileAndSave_eq]
  split
  · exact .refl s.disk
  · have hfiles := (hf graph (compileOptions s.options) s.memory s.disk).remains
    unfold compiled
    cases hc : s.engine.compile graph (compileOptions s.options) s.memory s.disk with
    | mk result after =>
      rw [hc] at hfiles
      cases result with
      | error e => exact hfiles
      | ok bundle =>
        dsimp only at hfiles ⊢
        rw [saved_disk]
        exact hfiles.trans (Bundle.save_keeps after.2 root bundle s.options s.config).toRemains

/-- A unit that commits has all on the ledger that its filters keep. What it adds has its id. -/
theorem commit_idle {written : Option Target} (he : s.engine.ListsGiven)
    (hf : s.engine.LeavesFiles) (hnew : s.hasBundleFor single.root = false)
    (h : single.pipeline.commit graph s = (.ok written, s')) :
    Later s s' ∧ Idle s' single graph ∧ ∃ added, s'.config.bundles = s.config.bundles ++ added ∧
      ∀ b ∈ added, b.1 = single.id s.options := by
  obtain ⟨modules, hm, hadvanced, hconfig⟩ := commit_selects he hf h
  have hdisk : Disk.Remains s.disk s'.disk := by
    have hremains :=
      compileAndSave_remains hf (single.commit graph).root ((single.commit graph).modules s)
    rwa [← Single.pipeline_commit, h] at hremains
  obtain ⟨added, hb, hids, hheld⟩ : ∃ added, s'.config.bundles = s.config.bundles ++ added ∧
      (∀ b ∈ added, b.1 = single.id s.options) ∧ ∀ m ∈ modules, ∃ b ∈ added, m ∈ b.2 := by
    rcases hconfig with ⟨rfl, hconfig⟩ | hconfig <;> rw [hconfig]
    · exact ⟨[], by simp⟩
    · exact ⟨_, LoaderConfig.bundles_register_of_new hnew modules,
        by simp [Single.id, Single.target], by simp⟩
  have hlater : Later s s' := by
    refine ⟨hadvanced.options, hadvanced.engine, hadvanced.sections, fun b hmem => ?_, hdisk⟩
    rw [hb]
    exact List.mem_append_left _ hmem
  refine ⟨hlater, fun m hgraph hk => ?_, added, hb, hids⟩
  by_cases hold : s.config.isBundled m = true
  · exact hlater.isBundled hold
  · obtain ⟨b, hadded, hmem⟩ := hheld m ((hm m).2 ⟨hgraph, by simpa using hold, hlater.keeps hk⟩)
    rw [LoaderConfig.isBundled_iff, hb]
    exact ⟨b, List.mem_append_right _ hadded, hmem⟩

/-- After commits that all succeed, every unit is idle. -/
theorem commitAll_idle {jobs : List (Job ε)} {traced : List (Single × Except Failure Graph)}
    (hserve : List.Forall₂ Serves jobs traced) :
    ∀ s : Session ε, s.engine.ListsGiven → s.engine.LeavesFiles →
      (traced.map fun t => t.1.id s.options).Nodup →
      (∀ t ∈ traced, s.hasBundleFor t.1.root = false) →
      (∀ r ∈ (s.commitAll jobs).1, r.2.toBool = true) →
      Later s (s.commitAll jobs).2 ∧
        ∀ t ∈ traced, ∃ graph, t.2 = .ok graph ∧ Idle (s.commitAll jobs).2 t.1 graph := by
  induction hserve with
  | nil => exact fun s _ _ _ _ _ => ⟨.refl s, fun t ht => by cases ht⟩
  | @cons job t jobs traced hj _ ih =>
    intro s he hf hids hnew hok
    rw [List.forall_mem_cons] at hnew
    rw [List.map_cons, List.nodup_cons] at hids
    simp only [commitAll, List.forall_mem_cons] at hok ⊢
    obtain ⟨single, result⟩ := t
    obtain ⟨hp, ht⟩ := hj
    dsimp only at hp ht hids hnew
    cases result with
    | error e =>
      rw [Job.commit, ht] at hok
      cases hok.1
    | ok graph =>
      have hcommit : job.commit s = single.pipeline.commit graph s := by
        rw [Job.commit, ht, hp]
      rw [hcommit] at hok ⊢
      rcases hr : single.pipeline.commit graph s with ⟨e | written, s'⟩ <;> rw [hr] at hok
      · cases hok.1
      · obtain ⟨hlater, hidle, added, hb, hadded⟩ := commit_idle he hf hnew.1 hr
        have hnew' := hasBundleFor_rest hlater.options hb hadded hids.1 hnew.2
        rw [← hlater.options] at hids
        obtain ⟨hrest, hidles⟩ :=
          ih s' (hlater.engine ▸ he) (hlater.engine ▸ hf) hids.2 hnew' hok.2
        exact ⟨hlater.trans hrest, ⟨graph, rfl, hidle.later hrest⟩, hidles⟩

/-! ## The second call -/

theorem commit_of_idle (h : Idle s single graph) : single.pipeline.commit graph s =
    (.ok none, s.emit (.bundleSkipped (single.commit graph).root)) := by
  rw [Single.pipeline_commit, idle_iff.1 h]
  rfl

/-- A unit that bundles nothing had nothing to bundle: what it selects would be in the bundle. -/
theorem idle_of_commit (he : s.engine.ListsGiven)
    (h : (single.pipeline.commit graph s).1 = .ok none) : Idle s single graph := by
  rw [Single.pipeline_commit] at h
  rw [idle_iff]
  generalize (single.commit graph).modules s = selected at h ⊢
  unfold compileAndSave at h
  split at h
  · rename_i hempty
    exact List.isEmpty_iff.1 hempty
  · split at h
    · cases h
    · rename_i bundle memory disk hcompile
      have hlists := he selected (compileOptions s.options) s.memory s.disk bundle (by rw [hcompile])
      split at h
      · cases h
      · rename_i written config disk' hsave
        cases h
        have hnil : bundle.modules = [] := by
          unfold Bundle.save at hsave
          split at hsave
          · rename_i hempty
            exact List.isEmpty_iff.1 hempty
          · dsimp only at hsave
            split at hsave <;> cases hsave
        rw [← names_eq_nil_iff, List.eq_nil_iff_forall_not_mem]
        intro m hm
        rw [← hlists m, hnil] at hm
        cases hm

/-- Units bundle nothing exactly when all of them are traced and idle. -/
theorem commitAll_nothing_iff {jobs : List (Job ε)} {traced : List (Single × Except Failure Graph)}
    (hserve : List.Forall₂ Serves jobs traced) : ∀ s : Session ε, s.engine.ListsGiven →
      ((∀ r ∈ (s.commitAll jobs).1, r.2 = .ok none) ↔
        ∀ t ∈ traced, ∃ graph, t.2 = .ok graph ∧ Idle s t.1 graph) := by
  induction hserve with
  | nil => exact fun s _ => ⟨fun _ t ht => (by cases ht), fun _ r hr => (by cases hr)⟩
  | @cons job t jobs traced hj _ ih =>
    intro s he
    obtain ⟨single, result⟩ := t
    obtain ⟨hp, ht⟩ := hj
    dsimp only at hp ht
    simp only [commitAll, List.forall_mem_cons]
    cases result with
    | error e =>
      rw [Job.commit, ht]
      constructor
      · rintro ⟨h, -⟩
        cases h
      · rintro ⟨⟨graph, h, -⟩, -⟩
        cases h
    | ok graph =>
      have hcommit : job.commit s = single.pipeline.commit graph s := by
        rw [Job.commit, ht, hp]
      rw [hcommit]
      constructor
      · rintro ⟨hnone, hrest⟩
        have hidle := idle_of_commit he hnone
        rw [commit_of_idle hidle] at hrest
        exact ⟨⟨graph, rfl, hidle⟩, (ih (s.emit _) he).1 hrest⟩
      · rintro ⟨⟨graph', heq, hidle⟩, hrest⟩
        cases heq
        rw [commit_of_idle hidle]
        exact ⟨rfl, (ih (s.emit _) he).2 hrest⟩

/-- Idle units change nothing but the reports. -/
theorem commitAll_of_idle {jobs : List (Job ε)} {traced : List (Single × Except Failure Graph)}
    (hserve : List.Forall₂ Serves jobs traced) : ∀ s : Session ε,
      (∀ t ∈ traced, ∃ graph, t.2 = .ok graph ∧ Idle s t.1 graph) →
      (s.commitAll jobs).2.config = s.config ∧ (s.commitAll jobs).2.disk = s.disk := by
  induction hserve with
  | nil => exact fun s _ => ⟨rfl, rfl⟩
  | @cons job t jobs traced hj _ ih =>
    intro s hidle
    rw [List.forall_mem_cons] at hidle
    obtain ⟨⟨graph, hgraph, hhead⟩, hrest⟩ := hidle
    have hcommit : job.commit s = t.1.pipeline.commit graph s := by
      rw [Job.commit, hj.2, hgraph, hj.1]
    simp only [commitAll, hcommit, commit_of_idle hhead]
    exact ih (s.emit _) hrest

theorem report_nil_iff {results : List Settled} :
    report results = .ok [] ↔ ∀ r ∈ results, r.2 = .ok none := by
  rw [report_eq_ok_iff]
  constructor
  · rintro ⟨written, horder, hnil⟩ r hr
    have ho : r.2 ∈ inOrder results := mem_inOrder.2 ⟨r, hr, rfl⟩
    rw [horder] at ho
    obtain ⟨target, htarget, heq⟩ := List.mem_map.1 ho
    rw [← heq]
    rw [eq_comm, List.filterMap_eq_nil_iff] at hnil
    rw [show target = none from hnil target htarget]
  · intro h
    refine ⟨(inOrder results).map fun _ => none, ?_, ?_⟩
    · rw [List.map_map]
      refine (List.map_id _).symm.trans (List.map_congr_left fun o ho => ?_)
      obtain ⟨r, hr, rfl⟩ := mem_inOrder.1 ho
      exact h r hr
    · simp

/-! ## Running units -/

theorem trace_fst (s : Session ε) (expression : String) : (s.trace expression).1 =
    match (s.engine.trace expression s.memory s.disk).1 with
    | .ok graph => .ok graph
    | .error e => .error (.engine e) := by
  unfold Session.trace
  cases s.engine.trace expression s.memory s.disk with
  | mk result after => cases result <;> rfl

theorem trace_disk (s : Session ε) (expression : String) :
    (s.trace expression).2.disk = (s.engine.trace expression s.memory s.disk).2.2 := by
  unfold Session.trace
  cases s.engine.trace expression s.memory s.disk with
  | mk result after => cases result <;> rfl

/-- A trace ends the same way at any time. -/
theorem trace_answer (ht : s.engine.TracesOnly) (he : s'.engine = s.engine) (expression : String) :
    (s'.trace expression).1 = (s.trace expression).1 := by
  rw [trace_fst, trace_fst, he, ht.answer expression s'.memory s.memory s'.disk s.disk]

theorem traceAll_answers (ht : s.engine.TracesOnly) (expressions : List String) :
    (s.traceAll expressions).1 = expressions.map (fun e => (s.trace e).1) ∧
      Disk.Extends [] s.disk (s.traceAll expressions).2.disk := by
  induction expressions generalizing s with
  | nil => exact ⟨rfl, .refl _ _⟩
  | cons expression expressions ih =>
    have he := (trace_frame s expression).2.1
    obtain ⟨hanswers, hdisk⟩ := ih (s := (s.trace expression).2) (he ▸ ht)
    refine ⟨?_, ?_⟩
    · simp only [traceAll, hanswers, List.map_cons, trace_answer ht he]
    · have hfiles := ht.files expression s.memory s.disk
      rw [← trace_disk] at hfiles
      exact hfiles.trans hdisk

def traced (s : Session ε) (units : List Single) : List (Single × Except Failure Graph) :=
  units.map fun unit => (unit, (s.trace unit.expression).1)

/-- Running units commits them in some order, after traces that change nothing. -/
theorem runAll_commits (ht : s.engine.TracesOnly) (units : List Single) :
    ∃ s₁ order served, Later s s₁ ∧ Later s₁ s ∧ s₁.config = s.config ∧
      Disk.Extends [] s.disk s₁.disk ∧
      List.Forall₂ Serves order served ∧ served.Perm (traced s units) ∧
      s.runAll (units.map Single.pipeline) =
        (report (s₁.commitAll order).1, (s₁.commitAll order).2) := by
  obtain ⟨ho, he, hc⟩ := traceAll_frame s (units.map Single.expression)
  obtain ⟨hanswers, hdisk⟩ := traceAll_answers ht (units.map Single.expression)
  rcases htraced : s.traceAll (units.map Single.expression) with ⟨graphs, s₁⟩
  rw [htraced] at ho he hc hanswers hdisk
  dsimp only at ho he hc hanswers hdisk
  have hzip : units.zip graphs = traced s units := by
    rw [hanswers, List.map_map, ← List.map_prod_left_eq_zip]
    rfl
  obtain ⟨served, hserve, hperm⟩ := List.perm_comp_forall₂
    (List.mergeSort_perm (jobsOf (units.map Single.pipeline) graphs) _) (serves_jobsOf units graphs)
  refine ⟨s₁, _, served, ⟨ho, he, fun _ _ => by rw [hc], fun b hb => by rwa [hc], hdisk.remains⟩,
    ⟨ho.symm, he.symm, fun _ _ => by rw [hc], fun b hb => by rwa [hc] at hb, hdisk.symm.remains⟩,
    hc, hdisk, hserve, hzip ▸ hperm, runAll_of_traceAll htraced⟩

/-- Units bundle nothing exactly when all can be traced and are idle, and then nothing is changed. -/
theorem runAll_nothing_iff (he : s.engine.ListsGiven) (ht : s.engine.TracesOnly)
    (units : List Single) :
    ((s.runAll (units.map Single.pipeline)).1 = .ok [] ↔
      ∀ unit ∈ units, ∃ graph, (s.trace unit.expression).1 = .ok graph ∧ Idle s unit graph) ∧
    ((s.runAll (units.map Single.pipeline)).1 = .ok [] →
      (s.runAll (units.map Single.pipeline)).2.config = s.config ∧
        Disk.Extends [] s.disk (s.runAll (units.map Single.pipeline)).2.disk) := by
  obtain ⟨s₁, order, served, hlater, hback, hc, hdisk, hserve, hperm, hrun⟩ :=
    runAll_commits ht units
  have hiff := commitAll_nothing_iff hserve s₁ (hlater.engine ▸ he)
  rw [hrun, report_nil_iff, hiff]
  refine ⟨?_, fun hidle => ?_⟩
  · constructor
    · intro hidle unit hunit
      obtain ⟨graph, hgraph, hi⟩ := hidle (unit, (s.trace unit.expression).1)
        (hperm.mem_iff.2 (List.mem_map.2 ⟨unit, hunit, rfl⟩))
      exact ⟨graph, hgraph, hi.later hback⟩
    · intro hidle t ht'
      obtain ⟨unit, hunit, rfl⟩ := List.mem_map.1 (hperm.mem_iff.1 ht')
      obtain ⟨graph, hgraph, hi⟩ := hidle unit hunit
      exact ⟨graph, hgraph, hi.later hlater⟩
  · obtain ⟨hconfig, hfiles⟩ := commitAll_of_idle hserve s₁ hidle
    dsimp only
    rw [hconfig, hfiles]
    exact ⟨hc, hdisk⟩

/-! ## The operation -/

theorem finish_of_ok {α : Type} {operation : String} {out : Outcome ε α} {a : α}
    (h : out.1 = .ok a) : Session.finish operation out = out := by
  obtain ⟨result, s⟩ := out
  cases h
  rfl

theorem remainingComponents_of_pending {entries : List String}
    (h : s.pendingComponents = .ok entries) : s.remainingComponents =
      Session.finish "bundle_remaining_components"
        (s.runAll ((entries.map Single.component).map Single.pipeline)) := by
  rw [remainingComponents, h, List.map_map]
  rfl

theorem pendingComponents_eq {found : List String}
    (h : Discovery.entryFiles? s.disk s.options.basePath = some found) :
    s.pendingComponents =
      .ok (found.filter fun e => !s.hasBundleFor (ComponentRoot.ofEntry e)) := by
  rw [pendingComponents, h]

/-- One pipeline, with no other beside it, runs as on its own. -/
theorem runAll_singleton (s : Session ε) (p : Pipeline ε) :
    s.runAll [p] = ((p.run s).1.map Option.toList, (p.run s).2) := by
  have hreport : ∀ outcome : Except Failure (Option Target),
      report [(0, outcome)] = outcome.map Option.toList := by
    rintro (e | _ | target) <;>
      simp [report, inOrder, bind, Except.bind, pure, Except.pure, Except.map]
  simp only [runAll, List.map_cons, List.map_nil, traceAll, commitOrder, jobsOf, List.zip_cons_cons,
    List.zip_nil_left, List.zipIdx_cons, List.zipIdx_nil, List.mergeSort_singleton, commitAll, hreport,
    Job.commit, Pipeline.run]
  rcases s.trace p.expression with ⟨e | graph, s₁⟩ <;> rfl

theorem remainingComponents_of_one {entry : String} (h : s.pendingComponents = .ok [entry]) :
    s.remainingComponents = Session.finish "bundle_remaining_components"
      (((componentPipeline entry).run s).1.map Option.toList, ((componentPipeline entry).run s).2) := by
  rw [remainingComponents, h, ← runAll_singleton]
  rfl

/-- Whether there is a pattern to search with does not depend on the files. -/
theorem entryFiles?_isSome {disk : Disk} {base : String} {found : List String}
    (h : Discovery.entryFiles? disk base = some found) (later : Disk) :
    ∃ found', Discovery.entryFiles? later base = some found' := by
  unfold Discovery.entryFiles? at h ⊢
  simp only [Option.bind_eq_bind, Option.bind_eq_some_iff] at h
  obtain ⟨steps, hsteps, -⟩ := h
  simp only [hsteps, Option.bind_eq_bind, Option.bind_some]
  exact ⟨_, rfl⟩

/-- The entry files below the source root. -/
def entriesOf (s : Session ε) : List String :=
  (Discovery.entryFiles? s.disk s.options.basePath).getD []

theorem entriesOf_eq {found : List String}
    (h : Discovery.entryFiles? s.disk s.options.basePath = some found) : entriesOf s = found := by
  rw [entriesOf, h, Option.getD_some]

/-- The entry files that are found after a call and were not before, and that have no bundle. -/
def newPending (s s' : Session ε) : List String :=
  (entriesOf s').filter fun entry =>
    !(entriesOf s).contains entry && !s'.hasBundleFor (ComponentRoot.ofEntry entry)

/-- A call that succeeds has found the entry files. -/
theorem exists_entryFiles_of_ok {targets : List Target}
    (h : s.remainingComponents = (.ok targets, s')) :
    ∃ found, Discovery.entryFiles? s.disk s.options.basePath = some found := by
  cases hfound : Discovery.entryFiles? s.disk s.options.basePath with
  | some found => exact ⟨found, rfl⟩
  | none =>
    have hfail : s.remainingComponents.1 = .error (.discovery "malformed pattern") := by
      rw [remainingComponents, finish_fst, pendingComponents, hfound]
    rw [h] at hfail
    cases hfail

/-- A component that was found is idle exactly when it selects nothing of its trace. -/
theorem idle_component_iff {found : List String} {entry : String}
    (hfound : Discovery.entryFiles? s.disk s.options.basePath = some found) (he : entry ∈ found) :
    (∃ graph, (s.trace (Single.component entry).expression).1 = .ok graph ∧
        Idle s (.component entry) graph) ↔
      ∃ graph, (s.trace entry).1 = .ok graph ∧
        s.componentModules (ComponentRoot.ofEntry entry) graph = [] := by
  simp only [idle_iff, Single.expression, Single.commit, Commit.modules,
    normalized_of_mem_entryFiles hfound he]

/-- After a run that succeeds, all its units are idle. -/
theorem idle_of_runAll {units : List Single} {targets : List Target} (he : s.engine.ListsGiven)
    (hf : s.engine.LeavesFiles) (ht : s.engine.TracesOnly)
    (hids : (units.map (Single.id s.options)).Nodup)
    (hnew : ∀ unit ∈ units, s.hasBundleFor unit.root = false)
    (h : s.runAll (units.map Single.pipeline) = (.ok targets, s')) :
    Later s s' ∧ ∀ unit ∈ units, ∃ graph, (s.trace unit.expression).1 = .ok graph ∧
      Idle s' unit graph := by
  obtain ⟨s₁, order, served, hlater, -, hc, -, hserve, hperm, heq⟩ := runAll_commits ht units
  rw [h] at heq
  obtain ⟨hreport, rfl⟩ := Prod.mk.inj heq
  have hnodup : (served.map fun t => t.1.id s₁.options).Nodup := by
    rw [(hperm.map _).nodup_iff, traced, List.map_map, hlater.options]
    exact hids
  have hnone : ∀ t ∈ served, s₁.hasBundleFor t.1.root = false := by
    intro t ht'
    obtain ⟨unit, hunit, rfl⟩ := List.mem_map.1 (hperm.mem_iff.1 ht')
    rw [hasBundleFor, hc, hlater.options]
    exact hnew unit hunit
  obtain ⟨hafter, hidle⟩ := commitAll_idle hserve s₁ (hlater.engine ▸ he) (hlater.engine ▸ hf)
    hnodup hnone (toBool_of_report hreport.symm)
  exact ⟨hlater.trans hafter, fun unit hunit =>
    hidle _ (hperm.mem_iff.2 (List.mem_map.2 ⟨unit, hunit, rfl⟩))⟩

/-- A call that succeeds has run the components that were missing. -/
theorem runAll_of_remainingComponents {entries : List String} {targets : List Target}
    (hpending : s.pendingComponents = .ok entries) (h : s.remainingComponents = (.ok targets, s')) :
    s.runAll ((entries.map Single.component).map Single.pipeline) = (.ok targets, s') := by
  rw [remainingComponents_of_pending hpending] at h
  have hfst := finish_fst "bundle_remaining_components"
    (s.runAll ((entries.map Single.component).map Single.pipeline))
  rw [h] at hfst
  rwa [finish_of_ok hfst.symm] at h

/-- After a call that succeeds, all entry files that it found have a bundle or are idle. -/
theorem idle_of_remainingComponents {found : List String} {targets : List Target}
    (he : s.engine.ListsGiven) (hf : s.engine.LeavesFiles) (ht : s.engine.TracesOnly)
    (hfound : Discovery.entryFiles? s.disk s.options.basePath = some found)
    (hids : ((found.filter fun e => !s.hasBundleFor (ComponentRoot.ofEntry e)).map fun e =>
      (Target.forRoot (ComponentRoot.ofEntry e) s.options).id).Nodup)
    (h : s.remainingComponents = (.ok targets, s')) :
    Later s s' ∧ ∀ entry ∈ found, s.hasBundleFor (ComponentRoot.ofEntry entry) = true ∨
      ∃ graph, (s.trace (Single.component entry).expression).1 = .ok graph ∧
        Idle s' (.component entry) graph := by
  have hroot : ∀ entry ∈ found, (Single.component entry).root = ComponentRoot.ofEntry entry :=
    fun entry hentry => by rw [Single.root, normalized_of_mem_entryFiles hfound hentry]
  set entries := found.filter fun e => !s.hasBundleFor (ComponentRoot.ofEntry e)
  have hnodup : ((entries.map Single.component).map (Single.id s.options)).Nodup := by
    rw [List.map_map]
    refine (List.map_congr_left fun entry hentry => ?_) ▸ hids
    simp only [Function.comp_apply, Single.id, Single.target,
      hroot entry (List.mem_of_mem_filter hentry)]
  have hnew : ∀ unit ∈ entries.map Single.component, s.hasBundleFor unit.root = false := by
    intro unit hunit
    obtain ⟨entry, hentry, rfl⟩ := List.mem_map.1 hunit
    obtain ⟨hmem, hnone⟩ := List.mem_filter.1 hentry
    rw [hroot entry hmem]
    simpa using hnone
  obtain ⟨hlater, hidle⟩ := idle_of_runAll he hf ht hnodup hnew
    (runAll_of_remainingComponents (pendingComponents_eq hfound) h)
  refine ⟨hlater, fun entry hentry => ?_⟩
  by_cases hb : s.hasBundleFor (ComponentRoot.ofEntry entry) = true
  · exact .inl hb
  · exact .inr (hidle _ (List.mem_map_of_mem (List.mem_filter.2 ⟨hentry, by simpa using hb⟩)))

/-- When a second call bundles nothing: the first call has left no component for it, so all depends
on the entry files that the first call has written. -/
theorem repeated_iff (s s' : Session ε) (targets : List Target) (he : s.engine.ListsGiven)
    (hf : s.engine.LeavesFiles) (ht : s.engine.TracesOnly)
    (hids : (((entriesOf s).filter fun e => !s.hasBundleFor (ComponentRoot.ofEntry e)).map fun e =>
      (Target.forRoot (ComponentRoot.ofEntry e) s.options).id).Nodup)
    (h : s.remainingComponents = (.ok targets, s')) :
    (s'.remainingComponents.1 = .ok [] ↔ ∀ entry ∈ newPending s s', ∃ graph,
      (s'.trace entry).1 = .ok graph ∧
        s'.componentModules (ComponentRoot.ofEntry entry) graph = []) ∧
    (s'.remainingComponents.1 = .ok [] → s'.remainingComponents.2.config = s'.config ∧
      Disk.Extends [] s'.disk s'.remainingComponents.2.disk) := by
  obtain ⟨found, hfound⟩ := exists_entryFiles_of_ok h
  have hentries : entriesOf s = found := entriesOf_eq hfound
  rw [hentries] at hids
  obtain ⟨hlater, hold⟩ := idle_of_remainingComponents he hf ht hfound hids h
  obtain ⟨found', hfound'⟩ := entryFiles?_isSome hfound s'.disk
  rw [← hlater.options] at hfound'
  have hentries' : entriesOf s' = found' := entriesOf_eq hfound'
  have hrun := runAll_nothing_iff (hlater.engine ▸ he) (hlater.engine ▸ ht)
    ((found'.filter fun e => !s'.hasBundleFor (ComponentRoot.ofEntry e)).map Single.component)
  have hremaining := remainingComponents_of_pending (pendingComponents_eq hfound')
  rw [hremaining, finish_fst]
  refine ⟨hrun.1.trans ?_, fun hnothing => ?_⟩
  · rw [List.forall_mem_map]
    constructor
    · intro hall entry hentry
      rw [newPending, hentries', hentries, List.mem_filter, Bool.and_eq_true] at hentry
      exact (idle_component_iff hfound' hentry.1).1
        (hall entry (List.mem_filter.2 ⟨hentry.1, hentry.2.2⟩))
    · intro hall entry hentry
      obtain ⟨hmem, hnone⟩ := List.mem_filter.1 hentry
      by_cases hwas : entry ∈ found
      · rcases hold entry hwas with hb | ⟨graph, hgraph, hi⟩
        · rw [hlater.hasBundleFor hb] at hnone
          cases hnone
        · exact ⟨graph, (trace_answer ht hlater.engine _).trans hgraph, hi⟩
      · refine (idle_component_iff hfound' hmem).2 (hall entry ?_)
        rw [newPending, hentries', hentries, List.mem_filter, Bool.and_eq_true]
        exact ⟨hmem, by simpa using hwas, hnone⟩
  · rw [finish_of_ok hnothing]
    exact hrun.2 hnothing

theorem entryFiles_pairNext : Discovery.entryFiles? pairNext.disk pairNext.options.basePath =
    some ["a/index.js", "b/index.js"] :=
  entryFiles_of_sorted rfl (by decide +kernel) (by decide +kernel)

/-- The session after the second component was bundled, too. -/
def pairLast : Session (List Engine.Call) := ((componentPipeline "b/index.js").run pairNext).2

theorem remainingComponents_pairNext : pairNext.remainingComponents =
    (.ok [Target.forRoot "b" pairNext.options], pairLast) := by
  have hpending : pairNext.pendingComponents = .ok ["b/index.js"] := by
    rw [pendingComponents_eq entryFiles_pairNext]
    decide +kernel
  have hwritten : ((componentPipeline "b/index.js").run pairNext).1 =
      .ok (some (Target.forRoot "b" pairNext.options)) := by decide +kernel
  rw [remainingComponents_of_one hpending, hwritten]
  rfl

/-- The output directory is not below the source root, so the bundles are no components. -/
theorem repeated_iff_pair : pairNext.remainingComponents =
      (.ok [Target.forRoot "b" pairNext.options], pairLast) ∧
    pairLast.remainingComponents.1 = .ok [] ∧
      pairLast.remainingComponents.2.config = pairLast.config := by
  have hfound : Discovery.entryFiles? pairLast.disk pairLast.options.basePath =
      some ["a/index.js", "b/index.js"] :=
    entryFiles_of_sorted rfl (by decide +kernel) (by decide +kernel)
  have hentries := entriesOf_eq entryFiles_pairNext
  have hnone : newPending pairNext pairLast = [] := by
    rw [newPending, hentries, entriesOf_eq hfound]
    decide +kernel
  obtain ⟨hiff, hsame⟩ := repeated_iff pairNext pairLast _ pairTable.listsGiven_naming
    pairTable.leavesFiles_naming pairTable.tracesOnly_naming
    (by rw [hentries]; decide +kernel) remainingComponents_pairNext
  have hnothing := hiff.2 (by simp [hnone])
  exact ⟨remainingComponents_pairNext, hnothing, (hsame hnothing).1⟩

/-! ## The default output directory -/

/-- A session with the default options, whose only component is the source root itself. -/
def rootStart : Session (List Engine.Call) :=
  Session.start {} ({} : Engine.Table).naming [] ⟨[]⟩
    { nodes := [(["build".toList], .directory),
        (["build".toList, "index.js".toList], .file (.text "") false)] }

/-- The session after that component was bundled, into a directory below the source root. -/
def rootNext : Session (List Engine.Call) := ((componentPipeline "index.js").run rootStart).2

theorem remainingComponents_rootStart : rootStart.remainingComponents =
    (.ok [Target.forRoot "." {}], rootNext) := by
  have hfound : Discovery.entryFiles? rootStart.disk rootStart.options.basePath = some ["index.js"] :=
    entryFiles_of_sorted rfl (by decide +kernel) (by decide +kernel)
  have hpending : rootStart.pendingComponents = .ok ["index.js"] := by
    rw [pendingComponents_eq hfound]
    decide +kernel
  have hwritten : ((componentPipeline "index.js").run rootStart).1 =
      .ok (some (Target.forRoot "." {})) := by decide +kernel
  rw [remainingComponents_of_one hpending, hwritten]
  rfl

/-- The bundle of the source root is called like an entry file and lies below the source root, so the
second call makes a bundle of that bundle. -/
theorem bundles_own_output :
    ¬ ∀ (s s' : Session (List Engine.Call)) (targets : List Target), s.options = {} →
      s.engine.ListsGiven → s.engine.LeavesFiles → s.engine.TracesOnly →
      s.remainingComponents = (.ok targets, s') →
      s'.remainingComponents.1 = .ok [] ∧ s'.remainingComponents.2.config = s'.config ∧
        s'.remainingComponents.2.disk = s'.disk := by
  intro h
  have hfound : Discovery.entryFiles? rootNext.disk rootNext.options.basePath =
      some ["bundles/index.js", "index.js"] :=
    entryFiles_of_sorted rfl (by decide +kernel) (by decide +kernel)
  have hpending : rootNext.pendingComponents = .ok ["bundles/index.js"] := by
    rw [pendingComponents_eq hfound]
    decide +kernel
  have hwritten : ((componentPipeline "bundles/index.js").run rootNext).1 =
      .ok (some (Target.forRoot "bundles" {})) := by decide +kernel
  have hnothing := (h rootStart rootNext _ rfl (Engine.Table.listsGiven_naming _)
    (Engine.Table.leavesFiles_naming _) (Engine.Table.tracesOnly_naming _)
    remainingComponents_rootStart).1
  rw [remainingComponents_of_one hpending, finish_fst, hwritten] at hnothing
  cases hnothing

end Concurrency

end BundleLedger
