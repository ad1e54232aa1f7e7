import BundleLedger.Proofs.Concurrency.LockOrder
import BundleLedger.Proofs.Concurrency.Outputs

/-!
# Components do not share their outputs

The id, the bundle and the map of a component all come from the stem of its root. Two roots have one
stem only if one of them is the project and the other is called `index`, which is what the bundle of
the project is called (`stem_eq_iff`). All other roots have ids and files of their own.

So the components of a bulk operation leave each other's bundles alone. Each of them commits once at
most: what is still under way are the roots of different components (`openRoots`), and a root that is
saved is under way no more.

**Hypotheses.** As in `Outputs`, nothing but saves changes what stands in the output directory
(`Spares`).

Results:

* `separate_iff_stem`: when two roots have nothing in common.
* `openRoots_step`: no step of a bulk operation brings up a root.
* `outputs_apart`: which roots share their outputs, and what a bulk operation leaves of each bundle.
-/
namespace BundleLedger

/-! ## Two roots -/

namespace Target

variable {root root' : String} {options : Options}

/-- One root is the project, and the other has the name of its bundle. -/
def SharesIndex (root root' : String) : Prop :=
  root = "." ∧ root' = "index" ∨ root = "index" ∧ root' = "."

instance (root root' : String) : Decidable (SharesIndex root root') :=
  inferInstanceAs (Decidable (_ ∨ _))

theorem stem_eq_iff (hne : root ≠ root') : stem root = stem root' ↔ SharesIndex root root' := by
  have hindex : ∀ s : String, "index".toList = s.toList ↔ s = "index" := fun s => by
    rw [String.toList_inj, eq_comm]
  unfold stem SharesIndex
  split <;> rename_i h <;> split <;> rename_i h'
  · exact absurd (h.trans h'.symm) hne
  · rw [hindex]
    simp [h, h']
  · rw [eq_comm, hindex]
    simp [h, h']
  · simp [h, h', String.toList_inj, hne]

theorem forRoot_eq_of_stem (h : IsRootName root) (h' : IsRootName root')
    (he : stem root = stem root') : Target.forRoot root options = Target.forRoot root' options := by
  rw [forRoot_eq h, forRoot_eq h', he]

/-- Two targets with nothing in common: not their id, and none of their files, neither by its path
nor by the place that it leads to. -/
structure Separate (t t' : Target) : Prop where
  id : t.id ≠ t'.id
  paths : ∀ file ∈ [t.path, t.mapPath], ∀ file' ∈ [t'.path, t'.mapPath], file ≠ file'
  places : ∀ d : Disk, ∀ file ∈ [t.path, t.mapPath], ∀ file' ∈ [t'.path, t'.mapPath],
    d.led file.toList ≠ d.led file'.toList

/-- No bundle is written where a map is. -/
theorem path_ne_mapPath (h : IsRootName root) (h' : IsRootName root') :
    (Target.forRoot root options).path ≠ (Target.forRoot root' options).mapPath := by
  intro he
  exact led_path_ne_led_mapPath (d := {}) h h' (by rw [he])

theorem separate_iff_stem (h : IsRootName root) (h' : IsRootName root') :
    Separate (Target.forRoot root options) (Target.forRoot root' options) ↔
      stem root ≠ stem root' := by
  constructor
  · intro hs he
    exact hs.id ((id_eq_iff_stem h h' options).2 he)
  · intro hne
    have places : ∀ d : Disk,
        ∀ file ∈ [(Target.forRoot root options).path, (Target.forRoot root options).mapPath],
        ∀ file' ∈ [(Target.forRoot root' options).path, (Target.forRoot root' options).mapPath],
          d.led file.toList ≠ d.led file'.toList := by
      intro d
      simp only [List.mem_cons, List.not_mem_nil, or_false, forall_eq_or_imp, forall_eq]
      exact ⟨⟨fun he => hne (led_path_inj h h' he), led_path_ne_led_mapPath h h'⟩,
        (led_path_ne_led_mapPath h' h).symm, fun he => hne (led_mapPath_inj h h' he)⟩
    refine ⟨fun he => hne ((id_eq_iff_stem h h' options).1 he), ?_, places⟩
    intro file hfile file' hfile' he
    exact places {} file hfile file' hfile' (by rw [he])

/-- Roots that have outputs of their own: they are different names, and not both the project and
`index` are among them. -/
structure Apart (roots : List String) : Prop where
  names : ∀ root ∈ roots, IsRootName root
  nodup : roots.Nodup
  noIndex : ¬ ("." ∈ roots ∧ "index" ∈ roots)

instance (roots : List String) : Decidable (Apart roots) :=
  decidable_of_iff ((∀ root ∈ roots, IsRootName root) ∧ roots.Nodup ∧
    ¬ ("." ∈ roots ∧ "index" ∈ roots))
    ⟨fun h => ⟨h.1, h.2.1, h.2.2⟩, fun h => ⟨h.names, h.nodup, h.noIndex⟩⟩

theorem Apart.id_ne {roots : List String} (h : Apart roots) (hroot : root ∈ roots)
    (hroot' : root' ∈ roots) (hne : root ≠ root') :
    (Target.forRoot root options).id ≠ (Target.forRoot root' options).id := by
  rw [Ne, id_eq_iff_stem (h.names root hroot) (h.names root' hroot'), stem_eq_iff hne]
  rintro (⟨rfl, rfl⟩ | ⟨rfl, rfl⟩)
  · exact h.noIndex ⟨hroot, hroot'⟩
  · exact h.noIndex ⟨hroot', hroot⟩

end Target

namespace Concurrency

open Session Target

variable {ε : Type}

/-! ## Roots that are under way -/

/-- What a unit of a bulk operation commits under. -/
def Task.roots : Task → Multiset String
  | .tracing single => {single.root}
  | .waiting commit => {commit.root}
  | .called _ | .gathering .. => 0

def Lock.roots : Lock → Multiset String
  | .free => 0
  | .compiling root _ | .saving root _ => {root}

def State.openRoots (st : State ε) : Multiset String := st.lock.roots + (st.tasks.map Task.roots).sum

def Task.IsUnit : Task → Prop
  | .tracing _ | .waiting _ => True
  | .called _ | .gathering .. => False

/-- Whoever gives the lock back brings up no root. -/
theorem openRoots_free_le (s s' : Session ε) (lock : Lock) (tasks : Multiset Task) :
    (⟨s', .free, tasks⟩ : State ε).openRoots ≤ (⟨s, lock, tasks⟩ : State ε).openRoots :=
  add_le_add_left (Multiset.zero_le _) _

theorem openRoots_step {st st' : State ε} (h : Step st st') (hu : ∀ t ∈ st.tasks, t.IsUnit) :
    (∀ t ∈ st'.tasks, t.IsUnit) ∧ st'.openRoots ≤ st.openRoots := by
  cases h with
  | outside s lock tasks memory disk events => exact ⟨hu, le_rfl⟩
  | start s lock request rest h => exact (hu _ (Multiset.mem_cons_self _ _)).elim
  | slot s lock before after root packages saveAs rest =>
    exact (hu _ (Multiset.mem_cons_self _ _)).elim
  | gather s lock traces packages saveAs rest => exact (hu _ (Multiset.mem_cons_self _ _)).elim
  | trace s lock single rest =>
    have hrest : ∀ t ∈ rest, t.IsUnit := fun t ht => hu t (Multiset.mem_cons_of_mem ht)
    cases (s.trace single.expression).1 with
    | error e =>
      refine ⟨by simpa [Single.next] using hrest, ?_⟩
      simp only [State.openRoots, Single.next, zero_add, Multiset.map_cons, Multiset.sum_cons]
      exact add_le_add_right (Multiset.le_add_left _ _) _
    | ok graph =>
      refine ⟨by simpa [Single.next, Task.IsUnit] using hrest, ?_⟩
      simp [State.openRoots, Single.next, Task.roots, Single.root_commit]
  | acquire s commit rest =>
    refine ⟨fun t ht => hu t (Multiset.mem_cons_of_mem ht), ?_⟩
    simp [State.openRoots, Lock.roots, Task.roots]
  | skip s root tasks => exact ⟨hu, openRoots_free_le ..⟩
  | compile s root graph tasks hne =>
    refine ⟨hu, ?_⟩
    unfold Concurrency.compiled
    split
    · exact openRoots_free_le ..
    · exact le_rfl
  | save s root bundle tasks => exact ⟨hu, openRoots_free_le ..⟩

/-! ## A bulk operation and its registrations -/

/-- The states of a bulk operation with nothing else under way, from where its units are found, each
with what was registered on the way. -/
inductive BulkRun (s₀ : Session ε) (units : List Single) : State ε → List Registration → Prop where
  | start : BulkRun s₀ units ⟨s₀, .free, (units.map Task.tracing : List Task)⟩ []
  /-- Any step but a save: who holds the lock to save a bundle keeps it. -/
  | step (st st' : State ε) (log : List Registration) (h : BulkRun s₀ units st log)
      (hs : Step st st') (hlock : ∀ root bundle, st.lock = .saving root bundle → st'.lock = st.lock)
      (hfiles : Spares st.session.options.dest.toList st.session.disk st'.session.disk) :
      BulkRun s₀ units st' log
  | save (s : Session ε) (root : String) (bundle : Bundle) (tasks : Multiset Task)
      (log : List Registration) (h : BulkRun s₀ units ⟨s, .saving root bundle, tasks⟩ log) :
      BulkRun s₀ units ⟨saved s root bundle, .free, tasks⟩ (log ++ registered s root bundle)

/-- What was registered is only looked at: such a run is one of the machine. -/
theorem BulkRun.steps {s₀ : Session ε} {units : List Single} {st : State ε} {log : List Registration}
    (h : BulkRun s₀ units st log) : Steps ⟨s₀, .free, (units.map Task.tracing : List Task)⟩ st := by
  induction h with
  | start => exact .refl
  | step st st' log _ hs _ _ ih => exact ih.tail hs
  | save s root bundle tasks log _ ih => exact ih.tail (.save s root bundle tasks)

/-- What was registered is as it was registered. -/
def Intact (options : Options) (s : Session ε) (r : Registration) : Prop :=
  Entries.get? s.config.bundles (r.target options).id = some r.bundle.modules ∧
    OnDisk options s.disk r

/-- A root was registered or is still under way, each root of a unit once at most, and what was
registered is intact. -/
structure BulkInvariant (s₀ : Session ε) (units : List Single) (st : State ε)
    (log : List Registration) : Prop where
  options : st.session.options = s₀.options
  isUnit : ∀ t ∈ st.tasks, t.IsUnit
  roots : ((log.map (·.root) : List String) : Multiset String) + st.openRoots ≤
    (units.map Single.root : List String)
  intact : ∀ r ∈ log, Intact s₀.options st.session r

theorem openRoots_start (s₀ : Session ε) (units : List Single) :
    (⟨s₀, .free, (units.map Task.tracing : List Task)⟩ : State ε).openRoots =
      (units.map Single.root : List String) := by
  simp only [State.openRoots, Lock.roots, zero_add]
  induction units with
  | nil => rfl
  | cons unit units ih =>
    simp only [List.map_cons, ← Multiset.cons_coe, Multiset.map_cons, Multiset.sum_cons, ih,
      Task.roots, Multiset.singleton_add]

/-- A save leaves what was registered under another id. -/
theorem Intact.save {s : Session ε} {r : Registration} {root : String} {bundle : Bundle}
    (h : Intact s.options s r) (hroot : IsRootName root) (hr : IsRootName r.root)
    (hid : (r.target s.options).id ≠ (Target.forRoot root s.options).id) :
    Intact s.options (saved s root bundle) r := by
  refine ⟨?_, ?_⟩
  · rcases saved_config_cases s root bundle with hc | hc <;> rw [hc]
    · exact h.1
    · rw [LoaderConfig.get?_bundles_register, if_neg hid.symm]
      exact h.1
  · rw [saved_disk]
    exact h.2.save hroot hr hid bundle s.config

/-- What a save registers is intact. -/
theorem intact_registered {s : Session ε} {root : String} {bundle : Bundle} (hroot : IsRootName root)
    {r : Registration} (hr : r ∈ registered s root bundle) :
    r.root = root ∧ Intact s.options (saved s root bundle) r := by
  rcases saved_cases s root bundle with ⟨hnone, -, -⟩ | ⟨hsome, hconfig, hwrite⟩
  · rw [hnone] at hr
    cases hr
  · rw [hsome, List.mem_singleton] at hr
    subst hr
    refine ⟨rfl, ?_, onDisk_of_write hroot hwrite⟩
    rw [hconfig, LoaderConfig.get?_bundles_register]
    exact if_pos rfl

theorem BulkInvariant.save {s₀ s : Session ε} {units : List Single} {root : String} {bundle : Bundle}
    {tasks : Multiset Task} {log : List Registration} (hapart : Apart (units.map Single.root))
    (h : BulkInvariant s₀ units ⟨s, .saving root bundle, tasks⟩ log) :
    BulkInvariant s₀ units ⟨saved s root bundle, .free, tasks⟩
      (log ++ registered s root bundle) := by
  have ho : s.options = s₀.options := h.options
  have hmem : ∀ root', root' ∈ log.map (·.root) ∨ root' = root → root' ∈ units.map Single.root := by
    intro root' hr
    refine Multiset.mem_coe.1 (Multiset.mem_of_le h.roots ?_)
    rcases hr with hr | rfl
    · exact Multiset.mem_add.2 (.inl (Multiset.mem_coe.2 hr))
    · exact Multiset.mem_add.2 (.inr (by simp [State.openRoots, Lock.roots]))
  have hroot : IsRootName root := hapart.names root (hmem root (.inr rfl))
  -- the root that is saved was not registered before, as it was still under way
  have hnew : root ∉ log.map (·.root) := by
    intro hr
    have hdisjoint := Multiset.nodup_add.1
      (Multiset.nodup_of_le h.roots (Multiset.coe_nodup.2 hapart.nodup))
    exact Multiset.disjoint_left.1 hdisjoint.2.2 (Multiset.mem_coe.2 hr)
      (by simp [State.openRoots, Lock.roots])
  refine ⟨(saved_options ..).trans h.options, h.isUnit, ?_, fun r hr => ?_⟩
  · have hroots : ((registered s root bundle).map (·.root) : Multiset String) ≤ {root} := by
      rcases saved_cases s root bundle with ⟨hnone, -, -⟩ | ⟨hsome, -, -⟩
      · rw [hnone]
        exact Multiset.zero_le _
      · rw [hsome]
        rfl
    refine le_trans ?_ h.roots
    simp only [List.map_append, ← Multiset.coe_add, add_assoc, State.openRoots, Lock.roots, zero_add]
    exact add_le_add_right (add_le_add_left hroots _) _
  · rw [← ho]
    rcases List.mem_append.1 hr with hr | hr
    · have hr' := List.mem_map_of_mem (f := (·.root)) hr
      refine Intact.save (ho ▸ h.intact r hr) hroot (hapart.names _ (hmem _ (.inl hr'))) ?_
      exact hapart.id_ne (hmem _ (.inl hr')) (hmem _ (.inr rfl)) fun he => hnew (he ▸ hr')
    · exact (intact_registered hroot hr).2

theorem bulkInvariant_run {s₀ : Session ε} {units : List Single} {st : State ε}
    {log : List Registration} (hapart : Apart (units.map Single.root))
    (h : BulkRun s₀ units st log) : BulkInvariant s₀ units st log := by
  induction h with
  | start =>
    refine ⟨rfl, ?_, ?_, fun r hr => (by cases hr)⟩
    · intro t ht
      obtain ⟨unit, -, rfl⟩ := List.mem_map.1 (Multiset.mem_coe.1 ht)
      trivial
    · rw [openRoots_start, List.map_nil, Multiset.coe_nil, zero_add]
  | step st st' log _ hs hlock hfiles ih =>
    obtain ⟨hunits, hroots⟩ := openRoots_step hs ih.isUnit
    refine ⟨hs.options.trans ih.options, hunits, ?_, fun r hr => ?_⟩
    · exact le_trans (add_le_add_right hroots _) ih.roots
    · have hname : IsRootName r.root := by
        refine hapart.names _ (Multiset.mem_coe.1 (Multiset.mem_of_le ih.roots ?_))
        exact Multiset.mem_add.2 (.inl (Multiset.mem_coe.2 (List.mem_map_of_mem hr)))
      obtain ⟨hledger, hdisk⟩ := ih.intact r hr
      rw [ih.options] at hfiles
      refine ⟨?_, hdisk.spares hname hfiles⟩
      rwa [hs.config_of_lock hlock]
  | save s root bundle tasks log _ ih => exact ih.save hapart

/-- Two different roots have nothing in common unless one is the project and the other is called
`index`, and those two have one target; the bundle of a root is never where the map of a root is. In a
bulk operation on components whose roots are different and not both of these, what was registered is
in the ledger and in its files ever after, whatever else the operation saves. -/
theorem outputs_apart :
    (∀ (options : Options) (root root' : String), IsRootName root → IsRootName root' → root ≠ root' →
      (Separate (Target.forRoot root options) (Target.forRoot root' options) ↔
        ¬ SharesIndex root root') ∧
      (SharesIndex root root' → Target.forRoot root options = Target.forRoot root' options) ∧
      (Target.forRoot root options).path ≠ (Target.forRoot root' options).mapPath ∧
      (Target.forRoot root' options).path ≠ (Target.forRoot root options).mapPath) ∧
    ∀ (s : Session ε) (entries : List String), s.pendingComponents = .ok entries →
      Apart ((entries.map Single.component).map Single.root) →
      ∀ (st : State ε) (log : List Registration),
        BulkRun s (entries.map .component) st log → ∀ r ∈ log, Intact s.options st.session r := by
  refine ⟨?_, ?_⟩
  · intro options root root' h h' hne
    refine ⟨?_, ?_, path_ne_mapPath h h', path_ne_mapPath h' h⟩
    · rw [separate_iff_stem h h', Ne, stem_eq_iff hne]
    · exact fun hs => forRoot_eq_of_stem h h' ((stem_eq_iff hne).2 hs)
  · intro s entries _ hapart st log hrun
    exact (bulkInvariant_run hapart hrun).intact

/-! ## Two components after each other -/

theorem BulkRun.quiet {s₀ : Session ε} {units : List Single} {st st' : State ε}
    {log : List Registration} (h : BulkRun s₀ units st log)
    (hq : Relation.ReflTransGen Quiet st st') : BulkRun s₀ units st' log := by
  induction hq with
  | refl => exact h
  | tail _ hstep ih => exact ih.step _ _ _ hstep.step hstep.lock hstep.files

/-- What the engine makes of the second component, without the module that the first one holds. -/
def secondBundle : Bundle where
  source := "/*b/index.js*/"
  sourceMap := some "\x7b\"version\":3,\"sources\":[\"b/index.js\"],\"mappings\":\"\"\x7d"
  modules := ["b/index.js"]

def secondCompiled : Session (List Engine.Call) :=
  (compiled (saved pairCompiled "a" pairBundle) "b"
    [("b/index.js", pairTable.record "b/index.js" "b/index.js")]).1

def bothSaved : Session (List Engine.Call) := saved secondCompiled "b" secondBundle

theorem bulkRun_pair : BulkRun pairStart (["a/index.js", "b/index.js"].map .component)
    ⟨bothSaved, .free, 0⟩ [⟨"a", pairBundle⟩, ⟨"b", secondBundle⟩] := by
  have hstart : BulkRun pairStart (["a/index.js", "b/index.js"].map .component)
      ⟨pairStart, .free, .tracing (.component "a/index.js") ::ₘ
        .tracing (.component "b/index.js") ::ₘ 0⟩ [] := .start
  have hfirst : BulkRun pairStart (["a/index.js", "b/index.js"].map .component)
      ⟨saved pairCompiled "a" pairBundle, .free, .tracing (.component "b/index.js") ::ₘ 0⟩
      [⟨"a", pairBundle⟩] :=
    (hstart.quiet (Single.quiet rfl (by decide +kernel) rfl (.refl _ _) (.refl _ _))).save ..
  exact (hfirst.quiet (Single.quiet rfl (by decide +kernel) rfl (.refl _ _) (.refl _ _))).save ..

theorem outputs_apart_pair :
    Separate (Target.forRoot "a" pairStart.options) (Target.forRoot "b" pairStart.options) ∧
      Target.forRoot "." pairStart.options = Target.forRoot "index" pairStart.options ∧
      BulkRun pairStart (["a/index.js", "b/index.js"].map .component) ⟨bothSaved, .free, 0⟩
        [⟨"a", pairBundle⟩, ⟨"b", secondBundle⟩] ∧
      Intact pairStart.options bothSaved ⟨"a", pairBundle⟩ ∧
      Intact pairStart.options bothSaved ⟨"b", secondBundle⟩ := by
  obtain ⟨hroots, hbulk⟩ := @outputs_apart (List Engine.Call)
  have hfound : Discovery.entryFiles? pairStart.disk pairStart.options.basePath =
      some ["a/index.js", "b/index.js"] :=
    entryFiles_of_sorted rfl (by decide +kernel) (by decide +kernel)
  have hpending : pairStart.pendingComponents = .ok ["a/index.js", "b/index.js"] := by
    rw [pendingComponents, hfound]
    rfl
  have hintact := hbulk pairStart _ hpending (by decide +kernel) _ _ bulkRun_pair
  exact ⟨(hroots _ "a" "b" (by decide) (by decide) (by decide)).1.2 (by decide),
    (hroots _ "." "index" (by decide) (by decide) (by decide)).2.1 (by decide), bulkRun_pair,
    hintact _ (by simp), hintact _ (by simp)⟩

/-! ## A component called `index` -/

/-- The bundle of the project is called `index`, and so is the bundle of a component of that name. -/
theorem project_replaced :
    ¬ ∀ (options : Options) (root root' : String), IsRootName root → IsRootName root' →
      root ≠ root' →
      (Target.forRoot root options).id ≠ (Target.forRoot root' options).id ∧
        (Target.forRoot root options).path ≠ (Target.forRoot root' options).path := by
  intro h
  have hsame : Target.forRoot "." {} = Target.forRoot "index" {} :=
    forRoot_eq_of_stem (by decide) (by decide) rfl
  exact (h {} "." "index" (by decide) (by decide) (by decide)).1 (congrArg Target.id hsame)

end Concurrency

end BundleLedger
