import BundleLedger.Proofs.Concurrency.Retention

/-!
# The lock order of a bulk operation

The units of a bulk operation race for the lock, and a module that two of them traced goes into the
bundle of the one that comes first. Which modules are bundled in the end does not depend on the
order: they are those of the ledger before, and all that the units' own filters keep of what was
traced.

A unit that comes later selects the less the more was registered before, and what it leaves out is on
the ledger already. So the union telescopes along the order (`commitAll_news`).

**Hypotheses.** The engine lists exactly the names that it was given and changes no file, no commit of
a traced unit fails, and the ids of the units are distinct. The filters of components look for entry
files while bundles are written; what is written must not be what they look for (`Clear`).
`order_matters` shows that an output directory beside the source root is not enough for that.

Results:

* `commit_selects`: what one commit adds to the ledger.
* `commitAll_news`: what a list of commits adds to the ledger.
* `bulk_order_free`: the ledger after a bulk operation, for every order.
-/
namespace BundleLedger

/-! ## What the filters depend on -/

namespace Selection

variable {c c' : LoaderConfig}

theorem section?_congr {key : String} (h : c'.get? key = c.get? key) :
    c'.section? key = c.section? key := by
  rw [LoaderConfig.section?, LoaderConfig.section?, h]

theorem mapEntry?_congr (h : c'.get? "map" = c.get? "map") (name : String) :
    c'.mapEntry? name = c.mapEntry? name := by
  rw [LoaderConfig.mapEntry?, LoaderConfig.mapEntry?, section?_congr h]

theorem dependenciesOf_congr (h : c'.get? "map" = c.get? "map") (location : String) :
    c'.dependenciesOf location = c.dependenciesOf location := by
  rw [LoaderConfig.dependenciesOf, LoaderConfig.dependenciesOf, mapEntry?_congr h]

theorem closeLocations_congr (h : c'.get? "map" = c.get? "map") (fuel : Nat)
    (pending found : List String) :
    closeLocations c' fuel pending found = closeLocations c fuel pending found := by
  induction fuel generalizing pending found with
  | zero => rfl
  | succ fuel ih =>
    cases pending with
    | nil => rfl
    | cons location pending => simp only [closeLocations, dependenciesOf_congr h, ih]

theorem packageLocations_congr (h : c'.get? "map" = c.get? "map") (names : List String) :
    packageLocations c' names = packageLocations c names := by
  have hl : packageLocation c' = packageLocation c := by
    funext name
    rw [packageLocation, packageLocation, LoaderConfig.locationOf?, LoaderConfig.locationOf?,
      mapEntry?_congr h]
  rw [packageLocations, packageLocations, hl, dependencyCount, dependencyCount, section?_congr h,
    closeLocations_congr h]

theorem buildsStyles_congr (h : c'.get? "buildCSS" = c.get? "buildCSS") :
    c'.buildsStyles = c.buildsStyles := by
  rw [LoaderConfig.buildsStyles, LoaderConfig.buildsStyles, h]

end Selection

namespace Concurrency

open Session

variable {ε : Type}

def Single.keeps (s : Session ε) (m : String) : Single → Bool
  | .component entry =>
    Selection.keptByComponent (s.disk.isComponent s.options.basePath) (Single.component entry).root
      s.config m
  | .packages names _ => Selection.keptByPackages s.config names m

theorem mem_names_commit {s : Session ε} {single : Single} {graph : Graph} {m : String} :
    m ∈ ((single.commit graph).modules s).names ↔
      m ∈ graph.names ∧ s.config.isBundled m = false ∧ single.keeps s m = true := by
  cases single with
  | component entry => exact mem_names_componentModules
  | packages names saveAs => exact mem_names_packageModules

def Single.target (options : Options) (single : Single) : Target := Target.forRoot single.root options

/-- The places that may come to be when the bundles of some singles are written. -/
def outputs (s : Session ε) (singles : List Single) : List Place :=
  singles.flatMap fun single => Bundle.places s.disk (single.target s.options)

def componentNames : Single × Except Failure Graph → List String
  | (.component _, .ok graph) => graph.names
  | _ => []

/-- Of what may be written at `places`, nothing new stands on the way to an entry file that the
filters look for: below the source root, in a directory above a module that was traced. -/
def Clear (s : Session ε) (places : List Place) (traced : List (Single × Except Failure Graph)) :
    Prop :=
  ∀ t ∈ traced, ∀ m ∈ componentNames t,
    ∀ dir ∈ Ownership.ancestors (ModuleName.resourceChars m.toList), dir ≠ [] →
      ∀ p ∈ places, p ∈ s.disk.probed s.options.basePath dir → s.disk.node? p = some .directory

/-- A later session: only its ledger, and its files at some places, may differ. -/
structure Advanced (places : List Place) (s s' : Session ε) : Prop where
  options : s'.options = s.options
  engine : s'.engine = s.engine
  sections : ∀ key, key ≠ "bundles" → s'.config.get? key = s.config.get? key
  disk : Disk.Extends places s.disk s'.disk

theorem Advanced.refl (places : List Place) (s : Session ε) : Advanced places s s :=
  ⟨rfl, rfl, fun _ _ => rfl, .refl places s.disk⟩

theorem Advanced.trans {places : List Place} {s s' s'' : Session ε} (h : Advanced places s s')
    (h' : Advanced places s' s'') : Advanced places s s'' :=
  ⟨h'.options.trans h.options, h'.engine.trans h.engine,
    fun key hk => (h'.sections key hk).trans (h.sections key hk), h.disk.trans h'.disk⟩

theorem Advanced.mono {places more : List Place} {s s' : Session ε} (h : Advanced places s s')
    (hs : ∀ p ∈ places, p ∈ more) : Advanced more s s' :=
  ⟨h.options, h.engine, h.sections, h.disk.mono hs⟩

/-- The filters of a single keep what they kept before. -/
theorem keeps_advanced {places : List Place} {s s' : Session ε} (h : Advanced places s s')
    {traced : List (Single × Except Failure Graph)} (hc : Clear s places traced) {single : Single}
    {graph : Graph} (ht : (single, .ok graph) ∈ traced) {m : String} (hm : m ∈ graph.names) :
    single.keeps s' m = single.keeps s m := by
  cases single with
  | packages names saveAs =>
    simp only [Single.keeps, Selection.keptByPackages,
      Selection.packageLocations_congr (h.sections "map" (by decide))]
  | component entry =>
    have hown : Ownership.isOwn (s'.disk.isComponent s.options.basePath)
        (Single.component entry).root m =
          Ownership.isOwn (s.disk.isComponent s.options.basePath) (Single.component entry).root m := by
      refine Ownership.isOwn_congr ?_
      intro dir hd
      by_cases hnil : dir = []
      · rw [hnil]
        rfl
      · exact Disk.isComponent_extends h.disk (hc _ ht m hm dir hd hnil)
    simp only [Single.keeps, Selection.keptByComponent, h.options, hown,
      Selection.buildsStyles_congr (h.sections "buildCSS" (by decide))]

/-! ## One commit -/

/-- A save that does not fail enters the modules of the bundle, if there are any. -/
theorem save_eq_ok {root : String} {b : Bundle} {options : Options} {c c' : LoaderConfig}
    {d d' : Disk} {written : Option Target} (h : b.save root options c d = (.ok written, c', d')) :
    (b.modules = [] ∧ c' = c) ∨ c' = c.register (Target.forRoot root options).id b.modules := by
  unfold Bundle.save at h
  split at h
  · rename_i hempty
    cases h
    exact .inl ⟨List.isEmpty_iff.1 hempty, rfl⟩
  · dsimp only at h
    split at h
    · cases h
    · cases h
      exact .inr rfl

theorem reportSaved_frame (s : Session ε) (root : String) (n : Nat) (written : Option Target) :
    (s.reportSaved root n written).options = s.options ∧
      (s.reportSaved root n written).engine = s.engine ∧
      (s.reportSaved root n written).config = s.config ∧
      (s.reportSaved root n written).disk = s.disk := by
  cases written <;> exact ⟨rfl, rfl, rfl, rfl⟩

theorem get?_saved {s : Session ε} {c' : LoaderConfig} {id : String} {modules : List String}
    (h : (modules = [] ∧ c' = s.config) ∨ c' = s.config.register id modules) {key : String}
    (hk : key ≠ "bundles") : c'.get? key = s.config.get? key := by
  rcases h with ⟨-, rfl⟩ | rfl
  · rfl
  · exact LoaderConfig.get?_register s.config id modules hk

/-- What one commit that does not fail adds to the ledger. -/
theorem commit_selects {s s' : Session ε} {single : Single} {graph : Graph}
    {written : Option Target} (he : s.engine.ListsGiven) (hf : s.engine.LeavesFiles)
    (h : single.pipeline.commit graph s = (.ok written, s')) :
    ∃ modules, (∀ m, m ∈ modules ↔
        m ∈ graph.names ∧ s.config.isBundled m = false ∧ single.keeps s m = true) ∧
      Advanced (Bundle.places s.disk (single.target s.options)) s s' ∧
      ((modules = [] ∧ s'.config = s.config) ∨
        s'.config = s.config.register (single.target s.options).id modules) := by
  rw [Single.pipeline_commit, Single.root_commit] at h
  simp only [← mem_names_commit]
  generalize (single.commit graph).modules s = selected at h ⊢
  unfold compileAndSave at h
  split at h
  · rename_i hempty
    cases h
    refine ⟨[], ?_, ⟨rfl, rfl, fun _ _ => rfl, .refl _ _⟩, .inl ⟨rfl, rfl⟩⟩
    intro m
    rw [List.isEmpty_iff.1 hempty]
    simp [Graph.names]
  · split at h
    · cases h
    · rename_i bundle memory disk hcompile
      have hlists := he selected (compileOptions s.options) s.memory s.disk bundle (by rw [hcompile])
      have hfiles := hf selected (compileOptions s.options) s.memory s.disk
      rw [hcompile] at hfiles
      split at h
      · cases h
      · rename_i saved config disk' hsave
        obtain ⟨ho, heng, hc, hd⟩ := reportSaved_frame ({ s with memory, config, disk := disk' })
          single.root bundle.modules.length saved
        simp only [Prod.mk.injEq] at h
        obtain ⟨-, rfl⟩ := h
        have hcases := save_eq_ok hsave
        have hplaces := Bundle.save_extends disk single.root bundle s.options s.config
        rw [hsave, Bundle.places_extends hfiles] at hplaces
        refine ⟨bundle.modules, hlists, ⟨ho, heng, ?_, ?_⟩, ?_⟩
        · intro key hk
          rw [hc]
          exact get?_saved hcases hk
        · rw [hd]
          exact (hfiles.mono (by simp)).trans hplaces
        · rw [hc]
          exact hcases

/-! ## Many commits -/

/-- What some commits add to the ledger: entries that share no module, and hold all that the filters
of the units keep and that was not held before. -/
structure Adds (s₁ s : Session ε) (traced : List (Single × Except Failure Graph))
    (news : List (String × List String)) : Prop where
  held : ∀ m, (∃ b ∈ news, m ∈ b.2) ↔ s.config.isBundled m = false ∧
    ∃ single graph, (single, .ok graph) ∈ traced ∧ m ∈ graph.names ∧ single.keeps s₁ m = true
  disjoint : news.Pairwise fun a b => ∀ m ∈ a.2, m ∉ b.2

/-- A job whose trace is there does not fail. -/
def Succeeds (job : Job ε) (settled : Settled) : Prop :=
  job.traced.toBool = true → settled.2.toBool = true

theorem adds_nil (s₁ s : Session ε) : Adds s₁ s [] [] := by
  refine ⟨?_, List.Pairwise.nil⟩
  intro m
  simp

/-- A unit whose trace failed adds nothing. -/
theorem Adds.failed {s₁ s : Session ε} {traced : List (Single × Except Failure Graph)}
    {news : List (String × List String)} (h : Adds s₁ s traced news) (single : Single) (e : Failure) :
    Adds s₁ s ((single, .error e) :: traced) news := by
  refine ⟨?_, h.disjoint⟩
  intro m
  rw [h.held]
  simp

theorem exists_traced_cons {s₁ : Session ε} {single : Single} {graph : Graph}
    {traced : List (Single × Except Failure Graph)} {m : String} :
    (∃ single' graph', (single', .ok graph') ∈ (single, .ok graph) :: traced ∧ m ∈ graph'.names ∧
        single'.keeps s₁ m = true) ↔
      (m ∈ graph.names ∧ single.keeps s₁ m = true) ∨
        ∃ single' graph', (single', .ok graph') ∈ traced ∧ m ∈ graph'.names ∧
          single'.keeps s₁ m = true := by
  constructor
  · rintro ⟨single', graph', ht, hm, hk⟩
    rcases List.mem_cons.1 ht with he | ht
    · cases he
      exact .inl ⟨hm, hk⟩
    · exact .inr ⟨single', graph', ht, hm, hk⟩
  · rintro (⟨hm, hk⟩ | ⟨single', graph', ht, hm, hk⟩)
    · exact ⟨single, graph, by simp, hm, hk⟩
    · exact ⟨single', graph', List.mem_cons_of_mem _ ht, hm, hk⟩

def Single.id (options : Options) (single : Single) : String := (single.target options).id

/-- What the commit of a traced unit leaves, which comes some commits after `s₁`: with `added`, the
ledger holds all that the filters kept at first and that was not held yet. -/
structure Committed (places : List Place) (s₁ s s' : Session ε) (single : Single) (graph : Graph)
    (added : List (String × List String)) : Prop where
  advanced : Advanced places s₁ s'
  bundles : s'.config.bundles = s.config.bundles ++ added
  ids : ∀ b ∈ added, b.1 = single.id s₁.options
  disjoint : added.Pairwise fun a b => ∀ m ∈ a.2, m ∉ b.2
  held : ∀ m, (∃ b ∈ added, m ∈ b.2) ↔
    m ∈ graph.names ∧ s.config.isBundled m = false ∧ single.keeps s₁ m = true

/-- The commit of a traced unit that has no bundle adds one entry at most. -/
theorem committed_of_ok {s₁ s s' : Session ε} {places : List Place}
    {all : List (Single × Except Failure Graph)} (he : s₁.engine.ListsGiven)
    (hf : s₁.engine.LeavesFiles) (hclear : Clear s₁ places all) (hadv : Advanced places s₁ s)
    {single : Single} {graph : Graph} (ht : (single, .ok graph) ∈ all)
    (hplaces : ∀ p ∈ Bundle.places s₁.disk (single.target s₁.options), p ∈ places)
    (hnew : s.hasBundleFor single.root = false) {written : Option Target}
    (h : single.pipeline.commit graph s = (.ok written, s')) :
    ∃ added, Committed places s₁ s s' single graph added := by
  obtain ⟨modules, hm, hstep, hc⟩ := commit_selects (hadv.engine ▸ he) (hadv.engine ▸ hf) h
  rw [hadv.options, Bundle.places_extends hadv.disk] at hstep
  have hadvanced : Advanced places s₁ s' := hadv.trans (hstep.mono hplaces)
  -- the filters keep what they kept before the first commit
  have hselects : ∀ m, m ∈ modules ↔
      m ∈ graph.names ∧ s.config.isBundled m = false ∧ single.keeps s₁ m = true := by
    intro m
    rw [hm]
    refine and_congr_right fun hg => and_congr_right fun _ => ?_
    rw [keeps_advanced hadv hclear ht hg]
  rcases hc with ⟨rfl, hc⟩ | hc
  · exact ⟨[], hadvanced, by rw [hc, List.append_nil], by simp, .nil, by simpa using hselects⟩
  · rw [hadv.options] at hc
    rw [hasBundleFor, hadv.options] at hnew
    refine ⟨[(single.id s₁.options, modules)], hadvanced, ?_, by simp, List.pairwise_singleton .., ?_⟩
    · rw [hc]
      exact LoaderConfig.bundles_register_of_new hnew modules
    · simpa using hselects

/-- A unit adds what it registers, and the later ones leave that out. -/
theorem Adds.committed {places : List Place} {s₁ s s' : Session ε}
    {traced : List (Single × Except Failure Graph)} {added news : List (String × List String)}
    (h : Adds s₁ s' traced news) {single : Single} {graph : Graph}
    (hc : Committed places s₁ s s' single graph added) :
    Adds s₁ s ((single, .ok graph) :: traced) (added ++ news) := by
  have hleft : ∀ m, s'.config.isBundled m = false ↔
      s.config.isBundled m = false ∧ ¬ ∃ b ∈ added, m ∈ b.2 := by
    intro m
    simp only [← Bool.not_eq_true, LoaderConfig.isBundled_iff, hc.bundles, List.mem_append,
      or_and_right, exists_or, not_or]
  refine ⟨?_, List.pairwise_append.2 ⟨hc.disjoint, h.disjoint, ?_⟩⟩
  · intro m
    have happend : (∃ b ∈ added ++ news, m ∈ b.2) ↔ (∃ b ∈ added, m ∈ b.2) ∨ ∃ b ∈ news, m ∈ b.2 := by
      simp only [List.mem_append, or_and_right, exists_or]
    rw [happend, h.held, exists_traced_cons, hleft, hc.held]
    tauto
  · intro a ha b hb m hma hmb
    have hnot := ((h.held m).1 ⟨b, hb, hmb⟩).1
    exact ((hleft m).1 hnot).2 ⟨a, ha, hma⟩

/-- When a unit has committed under its own id, the units that follow have no bundle still. -/
theorem hasBundleFor_rest {s s' : Session ε} {single : Single} {added : List (String × List String)}
    {traced : List (Single × Except Failure Graph)} (ho : s'.options = s.options)
    (hb : s'.config.bundles = s.config.bundles ++ added)
    (hadded : ∀ b ∈ added, b.1 = single.id s.options)
    (hid : single.id s.options ∉ traced.map fun t => t.1.id s.options)
    (hnew : ∀ t ∈ traced, s.hasBundleFor t.1.root = false) :
    ∀ t ∈ traced, s'.hasBundleFor t.1.root = false := by
  intro t ht
  rw [← Bool.not_eq_true, hasBundleFor, LoaderConfig.hasBundle_iff, hb, ho]
  rintro ⟨b, hmem, he⟩
  rcases List.mem_append.1 hmem with hold | hb
  · have hnone := hnew t ht
    rw [hasBundleFor, LoaderConfig.hasBundle_iff.2 ⟨b, hold, he⟩] at hnone
    cases hnone
  · exact hid (List.mem_map.2 ⟨t, ht, he.symm.trans (hadded b hb)⟩)

/-- Commits one after the other. Each of them adds what its filters keep of its trace and nothing
held before, so that together they add all that the filters keep, once. -/
theorem commitAll_news {s₁ : Session ε} {places : List Place}
    {all : List (Single × Except Failure Graph)} (he : s₁.engine.ListsGiven)
    (hf : s₁.engine.LeavesFiles) (hclear : Clear s₁ places all) {jobs : List (Job ε)}
    {traced : List (Single × Except Failure Graph)} (hserve : List.Forall₂ Serves jobs traced) :
    ∀ s : Session ε, Advanced places s₁ s → (∀ t ∈ traced, t ∈ all) →
      (∀ t ∈ traced, ∀ p ∈ Bundle.places s₁.disk (t.1.target s₁.options), p ∈ places) →
      (traced.map fun t => t.1.id s₁.options).Nodup →
      (∀ t ∈ traced, s.hasBundleFor t.1.root = false) →
      List.Forall₂ Succeeds jobs (s.commitAll jobs).1 →
      ∃ news, (s.commitAll jobs).2.config.bundles = s.config.bundles ++ news ∧
        Adds s₁ s traced news := by
  induction hserve with
  | nil =>
    intro s _ _ _ _ _ _
    exact ⟨[], by simp [commitAll], adds_nil s₁ s⟩
  | @cons job t jobs traced hj _ ih =>
    intro s hadv hall hplaces hids hnew hok
    simp only [List.forall_mem_cons] at hall hplaces hnew
    rw [List.map_cons, List.nodup_cons] at hids
    simp only [commitAll, List.forall₂_cons] at hok ⊢
    obtain ⟨hsucc, hok⟩ := hok
    obtain ⟨single, result⟩ := t
    obtain ⟨hp, ht⟩ := hj
    simp only at hp ht
    cases result with
    | error e =>
      have hcommit : job.commit s = (.error e, s) := by simp [Job.commit, ht]
      rw [hcommit] at hok ⊢
      obtain ⟨news, hb, hadds⟩ := ih s hadv hall.2 hplaces.2 hids.2 hnew.2 hok
      exact ⟨news, hb, hadds.failed single e⟩
    | ok graph =>
      have hcommit : job.commit s = single.pipeline.commit graph s := by simp [Job.commit, ht, hp]
      rw [hcommit] at hok hsucc ⊢
      rcases hr : single.pipeline.commit graph s with ⟨e | written, s'⟩ <;> rw [hr] at hsucc hok
      · cases hsucc (by rw [ht]; rfl)
      · obtain ⟨added, hc⟩ := committed_of_ok he hf hclear hadv hall.1 hplaces.1 hnew.1 hr
        have hnew' : ∀ t ∈ traced, s'.hasBundleFor t.1.root = false := by
          rw [← hadv.options] at hids
          exact hasBundleFor_rest (hc.advanced.options.trans hadv.options.symm) hc.bundles
            (by rw [hadv.options]; exact hc.ids) hids.1 hnew.2
        obtain ⟨news, hb, hadds⟩ := ih s' hc.advanced hall.2 hplaces.2 hids.2 hnew' hok
        exact ⟨added ++ news, by rw [hb, hc.bundles, List.append_assoc], hadds.committed hc⟩

/-! ## Bulk operations -/

/-- The units that a bulk operation finds in a session. -/
def IsBulk (s : Session ε) (units : List Single) : Prop :=
  units = pendingComponentUnits s ∨ units = readyPackageUnits s

theorem IsBulk.not_hasBundleFor {s : Session ε} {units : List Single} (h : IsBulk s units)
    {single : Single} (hs : single ∈ units) : s.hasBundleFor single.root = false := by
  rcases h with rfl | rfl
  · exact not_hasBundleFor_of_pending hs
  · exact not_hasBundleFor_of_ready hs

theorem countP_eq_one {news : List (String × List String)}
    (hd : news.Pairwise fun a b => ∀ m ∈ a.2, m ∉ b.2) {m : String} (hm : ∃ b ∈ news, m ∈ b.2) :
    (news.countP fun b => b.2.contains m) = 1 := by
  induction news with
  | nil => simp at hm
  | cons a news ih =>
    rw [List.pairwise_cons] at hd
    rw [List.countP_cons]
    by_cases ha : m ∈ a.2
    · have hzero : (news.countP fun b => b.2.contains m) = 0 := by
        rw [List.countP_eq_zero]
        intro b hb hmb
        exact hd.1 b hb m ha (by simpa using hmb)
      rw [hzero, if_pos (by simpa using ha)]
    · have hrest : ∃ b ∈ news, m ∈ b.2 := by
        obtain ⟨b, hb, hmb⟩ := hm
        rcases List.mem_cons.1 hb with rfl | hb
        · exact absurd hmb ha
        · exact ⟨b, hb, hmb⟩
      rw [ih hd.2 hrest, if_neg (by simpa using ha)]

/-- What the commits of a bulk operation add, in whatever order they are made. -/
theorem bulk_news {s s₁ : Session ε} {units : List Single} (hu : IsBulk s units)
    (hc : s₁.config = s.config) (ho : s₁.options = s.options) (he : s₁.engine.ListsGiven)
    (hf : s₁.engine.LeavesFiles) {graphs : List (Except Failure Graph)}
    (hl : graphs.length = units.length) (hids : (units.map (Single.id s₁.options)).Nodup)
    (hclear : Clear s₁ (outputs s₁ units) (units.zip graphs)) {order : List (Job ε)}
    (hp : order.Perm (jobsOf (units.map Single.pipeline) graphs))
    (hok : List.Forall₂ Succeeds order (s₁.commitAll order).1) :
    ∃ news, (s₁.commitAll order).2.config.bundles = s.config.bundles ++ news ∧
      Adds s₁ s (units.zip graphs) news := by
  obtain ⟨traced, hserve, hperm⟩ := List.perm_comp_forall₂ hp (serves_jobsOf units graphs)
  have hmem : ∀ t ∈ traced, t ∈ units.zip graphs := fun t ht => hperm.mem_iff.1 ht
  have hunit : ∀ t ∈ traced, t.1 ∈ units := fun t ht => (List.of_mem_zip (hmem t ht)).1
  have hplaces : ∀ t ∈ traced, ∀ p ∈ Bundle.places s₁.disk (t.1.target s₁.options),
      p ∈ outputs s₁ units :=
    fun t ht p hp => List.mem_flatMap.2 ⟨t.1, hunit t ht, hp⟩
  have hnodup : (traced.map fun t => t.1.id s₁.options).Nodup := by
    have hmap := hperm.map fun t => t.1.id s₁.options
    rw [hmap.nodup_iff]
    have hz := congrArg (List.map (Single.id s₁.options))
      (List.map_fst_zip (show units.length ≤ graphs.length by omega))
    rw [List.map_map] at hz
    rw [show (fun t : Single × Except Failure Graph => t.1.id s₁.options) =
      Single.id s₁.options ∘ Prod.fst from rfl, hz]
    exact hids
  have hnew : ∀ t ∈ traced, s₁.hasBundleFor t.1.root = false := by
    intro t ht
    rw [hasBundleFor, hc, ho]
    exact hu.not_hasBundleFor (hunit t ht)
  obtain ⟨news, hb, hadds⟩ :=
    commitAll_news he hf hclear hserve s₁ (.refl _ s₁) hmem hplaces hnodup hnew hok
  refine ⟨news, by rw [hb, hc], ?_, hadds.disjoint⟩
  intro m
  rw [hadds.held, hc]
  constructor
  · rintro ⟨hnot, single, graph, ht, hkept⟩
    exact ⟨hnot, single, graph, hperm.mem_iff.1 ht, hkept⟩
  · rintro ⟨hnot, single, graph, ht, hkept⟩
    exact ⟨hnot, single, graph, hperm.mem_iff.2 ht, hkept⟩

/-- What the ledger holds after entries were added. -/
theorem isBundled_of_news {s s₁ : Session ε} {c : LoaderConfig}
    {traced : List (Single × Except Failure Graph)} {news : List (String × List String)}
    (hb : c.bundles = s.config.bundles ++ news) (hadds : Adds s₁ s traced news) (m : String) :
    c.isBundled m = true ↔ s.config.isBundled m = true ∨
      ∃ single graph, (single, .ok graph) ∈ traced ∧ m ∈ graph.names ∧ single.keeps s₁ m = true := by
  have happ : c.isBundled m = true ↔ s.config.isBundled m = true ∨ ∃ b ∈ news, m ∈ b.2 := by
    simp only [LoaderConfig.isBundled_iff, hb, List.mem_append, or_and_right, exists_or]
  rw [happ, hadds.held]
  cases s.config.isBundled m <;> simp

/-- The ledger after a bulk operation. The units are found in `s`, their traces end with `graphs` in
`s₁`, and the commits are made in the order `order`. The modules on the ledger are those that were on
it and those that the units' filters keep of their traces, for every order, and each one that is new
stands in exactly one of the new entries. -/
theorem bulk_order_free (s s₁ : Session ε) (units : List Single) (hu : IsBulk s units)
    (hc : s₁.config = s.config) (ho : s₁.options = s.options) (he : s₁.engine.ListsGiven)
    (hf : s₁.engine.LeavesFiles) (graphs : List (Except Failure Graph))
    (hl : graphs.length = units.length) (hids : (units.map (Single.id s₁.options)).Nodup)
    (hclear : Clear s₁ (outputs s₁ units) (units.zip graphs)) (order order' : List (Job ε))
    (hp : order.Perm (jobsOf (units.map Single.pipeline) graphs))
    (hp' : order'.Perm (jobsOf (units.map Single.pipeline) graphs))
    (hok : List.Forall₂ Succeeds order (s₁.commitAll order).1)
    (hok' : List.Forall₂ Succeeds order' (s₁.commitAll order').1) :
    (∀ m, (s₁.commitAll order).2.config.isBundled m = (s₁.commitAll order').2.config.isBundled m) ∧
      (∀ m, (s₁.commitAll order).2.config.isBundled m = true ↔
        s.config.isBundled m = true ∨
          ∃ single graph, (single, .ok graph) ∈ units.zip graphs ∧ m ∈ graph.names ∧
            single.keeps s₁ m = true) ∧
      ∃ news, (s₁.commitAll order).2.config.bundles = s.config.bundles ++ news ∧
        ∀ m, s.config.isBundled m = false →
          (s₁.commitAll order).2.config.isBundled m = true →
          (news.countP fun b => b.2.contains m) = 1 := by
  obtain ⟨news, hb, hadds⟩ := bulk_news hu hc ho he hf hl hids hclear hp hok
  obtain ⟨news', hb', hadds'⟩ := bulk_news hu hc ho he hf hl hids hclear hp' hok'
  have hheld := isBundled_of_news hb hadds
  have hheld' := isBundled_of_news hb' hadds'
  refine ⟨?_, hheld, news, hb, ?_⟩
  · intro m
    rw [Bool.eq_iff_iff, hheld, hheld']
  · intro m hnot hheldm
    refine countP_eq_one hadds.disjoint ((hadds.held m).2 ⟨hnot, ?_⟩)
    rcases (hheld m).1 hheldm with hold | hkept
    · rw [hnot] at hold
      cases hold
    · exact hkept

/-! ## Two components in both orders -/

/-- Entry files that are found in order. -/
theorem entryFiles_of_sorted {disk : Disk} {base : String} {steps : List Discovery.Pattern}
    {entries : List String} (hs : Discovery.steps? (Discovery.pattern base.toList) = some steps)
    (hp : (Discovery.stepsFrom disk (Discovery.fuelFor disk steps) steps
      (if FilePath.isAbsolute (Discovery.pattern base.toList) then ['/'] else ['.'])).map
        (fun path => ModuleName.normalized
          (String.ofList ((FilePath.below? base.toList path).getD path))) = entries)
    (h : entries.Pairwise fun a b => a ≤ b) : Discovery.entryFiles? disk base = some entries := by
  unfold Discovery.entryFiles?
  simp only [hs, Option.bind_eq_bind, Option.bind_some, hp]
  rw [List.mergeSort_of_pairwise (by simpa using h)]
  rfl

/-- Where no entry file has a bundle, all are pending. -/
theorem isBulk_of_entryFiles {s : Session ε} {entries : List String}
    (h : Discovery.entryFiles? s.disk s.options.basePath = some entries)
    (hn : (entries.all fun e => !s.hasBundleFor (ComponentRoot.ofEntry e)) = true) :
    IsBulk s (entries.map .component) := by
  left
  rw [pendingComponentUnits, pendingComponents, h]
  dsimp only
  rw [List.filter_eq_self.2 (by simpa using hn)]

theorem succeeds_of_all {jobs : List (Job ε)} {settled : List Settled}
    (hl : jobs.length = settled.length)
    (h : ((jobs.zip settled).all fun p => !p.1.traced.toBool || p.2.2.toBool) = true) :
    List.Forall₂ Succeeds jobs settled := by
  rw [List.forall₂_iff_zip]
  refine ⟨hl, ?_⟩
  intro job result hmem htraced
  have := List.all_eq_true.1 h _ hmem
  simpa [htraced] using this

/-- The units of the two components that share a module. -/
def pairUnits : List Single := [.component "a/index.js", .component "b/index.js"]

def pairTraces : List (Except Failure Graph) := (pairStart.traceAll (pairUnits.map Single.expression)).1

def pairJobs : List (Job (List Engine.Call)) := jobsOf (pairUnits.map Single.pipeline) pairTraces

theorem isBulk_pair : IsBulk pairStart pairUnits := by
  have h : Discovery.entryFiles? pairStart.disk pairStart.options.basePath =
      some ["a/index.js", "b/index.js"] :=
    entryFiles_of_sorted rfl (by decide +kernel) (by decide +kernel)
  exact isBulk_of_entryFiles h (by decide +kernel)

theorem clear_pair : Clear pairStart (outputs pairStart pairUnits) (pairUnits.zip pairTraces) := by
  have h : ((pairUnits.zip pairTraces).all fun t => (componentNames t).all fun m =>
      decide (∀ dir ∈ Ownership.ancestors (ModuleName.resourceChars m.toList), dir ≠ [] →
        ∀ p ∈ outputs pairStart pairUnits, p ∈ pairStart.disk.probed pairStart.options.basePath dir →
          pairStart.disk.node? p = some .directory)) = true := by decide +kernel
  intro t ht m hm
  exact of_decide_eq_true (List.all_eq_true.1 (List.all_eq_true.1 h t ht) m hm)

/-- The shared module goes into the bundle that is made first, and in both orders the same three
modules are new. -/
theorem bulk_order_free_pair :
    (pairStart.commitAll pairJobs).2.config.bundles =
        [("bundles/old", ["old.js"]), ("bundles/a", ["a/index.js", "shared.js"]),
          ("bundles/b", ["b/index.js"])] ∧
      (pairStart.commitAll pairJobs.reverse).2.config.bundles =
        [("bundles/old", ["old.js"]), ("bundles/b", ["b/index.js", "shared.js"]),
          ("bundles/a", ["a/index.js"])] ∧
      (∀ m, (pairStart.commitAll pairJobs).2.config.isBundled m =
        (pairStart.commitAll pairJobs.reverse).2.config.isBundled m) ∧
      (∀ m, (pairStart.commitAll pairJobs).2.config.isBundled m = true ↔
        pairStart.config.isBundled m = true ∨
          ∃ single graph, (single, .ok graph) ∈ pairUnits.zip pairTraces ∧ m ∈ graph.names ∧
            single.keeps pairStart m = true) ∧
      ∃ news, (pairStart.commitAll pairJobs).2.config.bundles = pairStart.config.bundles ++ news ∧
        ∀ m, pairStart.config.isBundled m = false →
          (pairStart.commitAll pairJobs).2.config.isBundled m = true →
          (news.countP fun b => b.2.contains m) = 1 :=
  ⟨by decide +kernel, by decide +kernel,
    bulk_order_free pairStart pairStart pairUnits isBulk_pair rfl rfl pairTable.listsGiven_naming
      pairTable.leavesFiles_naming pairTraces (by decide +kernel) (by decide +kernel) clear_pair
      pairJobs pairJobs.reverse (.refl _) (List.reverse_perm _)
      (succeeds_of_all (by decide +kernel) (by decide +kernel))
      (succeeds_of_all (by decide +kernel) (by decide +kernel))⟩

/-! ## An output beside the source root -/

/-- The component `a` imports a module that lies in the output directory. -/
def besideTable : Engine.Table where
  imports := [("a/index.js", ["../out/lib.js"])]

/-- A source root that is a component itself. -/
def besideDisk : Disk where
  nodes := [(["src".toList], .directory), (["src".toList, "a".toList], .directory),
    (["src".toList, "a".toList, "index.js".toList], .file (.text "") false),
    (["src".toList, "index.js".toList], .file (.text "") false)]

def besideStart : Session (List Engine.Call) :=
  Session.start { basePath := "src", dest := "out" } besideTable.naming [] .empty besideDisk

def besideUnits : List Single := [.component "a/index.js", .component "index.js"]

def besideTraces : List (Except Failure Graph) :=
  (besideStart.traceAll (besideUnits.map Single.expression)).1

def besideJobs : List (Job (List Engine.Call)) := jobsOf (besideUnits.map Single.pipeline) besideTraces

theorem isBulk_beside : IsBulk besideStart besideUnits := by
  have h : Discovery.entryFiles? besideStart.disk besideStart.options.basePath =
      some ["a/index.js", "index.js"] :=
    entryFiles_of_sorted rfl (by decide +kernel) (by decide +kernel)
  exact isBulk_of_entryFiles h (by decide +kernel)

/-- The bundle of the project is written to `out/index.js`, after which `src/../out` counts as a
component and the module in it as a part of that. So it is bundled only if `a` comes first. -/
theorem order_matters :
    ¬ ∀ (s : Session (List Engine.Call)) (units : List Single)
        (graphs : List (Except Failure Graph)) (order order' : List (Job (List Engine.Call))),
      IsBulk s units →
      ¬ s.disk.written s.options.basePath.toList <+: s.disk.written s.options.dest.toList →
      s.engine.ListsGiven → s.engine.LeavesFiles → graphs.length = units.length →
      (units.map (Single.id s.options)).Nodup →
      order.Perm (jobsOf (units.map Single.pipeline) graphs) →
      order'.Perm (jobsOf (units.map Single.pipeline) graphs) →
      List.Forall₂ Succeeds order (s.commitAll order).1 →
      List.Forall₂ Succeeds order' (s.commitAll order').1 →
      ∀ m, (s.commitAll order).2.config.isBundled m = (s.commitAll order').2.config.isBundled m := by
  intro h
  have hsame := h besideStart besideUnits besideTraces besideJobs besideJobs.reverse isBulk_beside
    (by decide +kernel) besideTable.listsGiven_naming besideTable.leavesFiles_naming
    (by decide +kernel) (by decide +kernel) (.refl _) (List.reverse_perm _)
    (succeeds_of_all (by decide +kernel) (by decide +kernel))
    (succeeds_of_all (by decide +kernel) (by decide +kernel)) "../out/lib.js"
  have hfirst : (besideStart.commitAll besideJobs).2.config.isBundled "../out/lib.js" = true := by
    decide +kernel
  have hlast :
      (besideStart.commitAll besideJobs.reverse).2.config.isBundled "../out/lib.js" = false := by
    decide +kernel
  rw [hfirst, hlast] at hsame
  cases hsame

end Concurrency

end BundleLedger
