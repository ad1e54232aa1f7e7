import BundleLedger.Proofs.Concurrency.Disjointness

/-!
# What the ledger keeps

A registration replaces the entry that its id has, and the modules of that entry that were filtered
out because they were bundled already are in no other bundle. So an operation that bundles a root
once more can take modules off the ledger. This module says when.

An operation is taken with nothing else under way: it starts with the request alone and ends with
nothing left to do. Its steps come in any order, may fail, and files may change in between.

* A bulk operation bundles only units whose id the ledger does not have, so it replaces no entry that
  was there before (`Kept`, `kept_step`).
* Every other operation commits once at most. Before that the ledger is the old one, while the lock is
  held as well, and afterwards it is the old one or has one more registration of modules that it did
  not hold (`Phase`, `alone_step`).

Results:

* `retains_iff`: an operation keeps all modules on the ledger if and only if it registers nothing, is
  a bulk operation, or bundles a root whose entry holds no module that other entries do not hold.
* `group_forgets`: two groups under one name, where the second takes a module off the ledger.
-/
namespace BundleLedger.Concurrency

open Session

variable {ε : Type}

/-! ## Roots -/

def Single.root : Single → String
  | .component entry => ComponentRoot.ofEntry (ModuleName.normalized entry)
  | .packages names saveAs => saveAs.getD (joinedNames names)

/-- The root that a request commits under; a bulk request has one for each unit. -/
def Request.root? : Request → Option String
  | .component entry => some (Single.component entry).root
  | .components _ saveAs => some saveAs
  | .bundle _ _ saveAs => some saveAs
  | .package name => some (joinedNames [name])
  | .packages names saveAs => some (saveAs.getD (joinedNames names))
  | .remainingComponents => none
  | .remainingPackages => none

/-- A task commits, if it does, under a root with a property; it is no bulk request. -/
def Task.Under (P : String → Prop) : Task → Prop
  | .called request => ∃ root, request.root? = some root ∧ P root
  | .tracing single => P single.root
  | .gathering _ _ saveAs => P saveAs
  | .waiting commit => P commit.root

def Lock.Under (P : String → Prop) : Lock → Prop
  | .free => True
  | .compiling root _ => P root
  | .saving root _ => P root

/-- All that is under way commits under roots with a property. -/
structure Under (P : String → Prop) (st : State ε) : Prop where
  tasks : ∀ t ∈ st.tasks, t.Under P
  lock : st.lock.Under P

theorem Single.root_commit (single : Single) (graph : Graph) :
    (single.commit graph).root = single.root := by
  cases single <;> rfl

theorem Single.under_next {P : String → Prop} {single : Single} (h : P single.root)
    (traced : Except Failure Graph) : ∀ t ∈ single.next traced, t.Under P := by
  intro t ht
  cases traced with
  | error e => simp [Single.next] at ht
  | ok graph =>
    simp only [Single.next, Multiset.mem_singleton] at ht
    subst ht
    show P (single.commit graph).root
    rw [Single.root_commit]
    exact h

theorem under_gathered {P : String → Prop} {saveAs : String} (h : P saveAs) (s : Session ε)
    (traces : List (String × Except Failure Graph)) (packages : List String) :
    ∀ t ∈ (gathered s traces packages saveAs).2, t.Under P := by
  intro t ht
  unfold gathered at ht
  split at ht
  · simp at ht
  · split at ht
    · simp at ht
    · simp only [Multiset.mem_singleton] at ht
      subst ht
      exact h

theorem Request.under_tasks {P : String → Prop} {request : Request} {root : String}
    (hr : request.root? = some root) (h : P root) (s : Session ε) :
    ∀ t ∈ request.tasks s, t.Under P := by
  intro t ht
  cases request <;> simp only [Request.root?, Option.some.injEq, reduceCtorEq] at hr <;> subst hr <;>
    simp only [Request.tasks, Multiset.mem_singleton] at ht <;> subst ht <;> exact h

theorem forall_mem_add {P : Task → Prop} {new rest : Multiset Task} (hn : ∀ t ∈ new, P t)
    (hr : ∀ t ∈ rest, P t) : ∀ t ∈ new + rest, P t := by
  intro t ht
  rcases Multiset.mem_add.1 ht with ht | ht
  · exact hn t ht
  · exact hr t ht

/-- What is under way keeps committing under the same roots. -/
theorem under_step {P : String → Prop} {st st' : State ε} (h : Under P st) (hs : Step st st') :
    Under P st' := by
  obtain ⟨ht, hl⟩ := h
  cases hs with
  | outside s lock tasks memory disk events => exact ⟨ht, hl⟩
  | start s lock request rest _ =>
    rw [Multiset.forall_mem_cons] at ht
    obtain ⟨root, hr, hP⟩ := ht.1
    exact ⟨forall_mem_add (Request.under_tasks hr hP s) ht.2, hl⟩
  | trace s lock single rest =>
    rw [Multiset.forall_mem_cons] at ht
    exact ⟨forall_mem_add (Single.under_next ht.1 _) ht.2, hl⟩
  | slot s lock before after root packages saveAs rest =>
    rw [Multiset.forall_mem_cons] at ht
    exact ⟨Multiset.forall_mem_cons.2 ⟨ht.1, ht.2⟩, hl⟩
  | gather s lock traces packages saveAs rest =>
    rw [Multiset.forall_mem_cons] at ht
    exact ⟨forall_mem_add (under_gathered ht.1 s traces packages) ht.2, hl⟩
  | acquire s commit rest =>
    rw [Multiset.forall_mem_cons] at ht
    exact ⟨ht.2, ht.1⟩
  | skip s root tasks => exact ⟨ht, trivial⟩
  | compile s root graph tasks _ =>
    refine ⟨ht, ?_⟩
    show (compiled s root graph).2.Under P
    unfold compiled
    split
    · trivial
    · exact hl
  | save s root bundle tasks => exact ⟨ht, trivial⟩

/-! ## Bulk operations -/

/-- The entries of the ledger of `s` are kept, and only roots without an entry there are under way. -/
structure Kept (s : Session ε) (st : State ε) : Prop where
  options : st.session.options = s.options
  under : Under (fun root => s.hasBundleFor root = false) st
  entries : ∀ b ∈ s.config.bundles, b ∈ st.session.config.bundles

theorem kept_step {s : Session ε} {st st' : State ε} (h : Kept s st) (hs : Step st st') :
    Kept s st' := by
  refine ⟨hs.options.trans h.options, under_step h.under hs, ?_⟩
  intro b hb
  rcases hs.config with hc | ⟨root, bundle, hl, hc⟩ <;> rw [hc]
  · exact h.entries b hb
  · have hroot : s.hasBundleFor root = false := by
      have := h.under.lock
      rw [hl] at this
      exact this
    rcases saved_config_cases st.session root bundle with hc | hc <;> rw [hc]
    · exact h.entries b hb
    · refine LoaderConfig.mem_bundles_register_of_ne (h.entries b hb) ?_
      intro he
      rw [h.options] at he
      have : s.config.hasBundle (Target.forRoot root s.options).id = true :=
        LoaderConfig.hasBundle_iff.2 ⟨b, hb, he⟩
      rw [hasBundleFor, this] at hroot
      cases hroot

theorem normalized_normalized (name : String) :
    ModuleName.normalized (ModuleName.normalized name) = ModuleName.normalized name := by
  simp only [ModuleName.normalized, String.toList_ofList, Text.replaceChar, List.map_map]
  congr 1
  apply List.map_congr_left
  intro c _
  by_cases h : c = '\\' <;> simp [h]

/-- Entry files are found under their usual names. -/
theorem normalized_of_mem_entryFiles {disk : Disk} {base : String} {entries : List String}
    (h : Discovery.entryFiles? disk base = some entries) {entry : String} (he : entry ∈ entries) :
    ModuleName.normalized entry = entry := by
  unfold Discovery.entryFiles? at h
  simp only [Option.bind_eq_bind, Option.bind_eq_some_iff, Option.pure_def, Option.some.injEq] at h
  obtain ⟨steps, -, rfl⟩ := h
  rw [List.mem_mergeSort, List.mem_map] at he
  obtain ⟨path, -, rfl⟩ := he
  exact normalized_normalized _

theorem joinedNames_singleton (name : String) : joinedNames [name] = name := rfl

theorem not_hasBundleFor_of_pending {s : Session ε} {single : Single}
    (h : single ∈ pendingComponentUnits s) : s.hasBundleFor single.root = false := by
  unfold pendingComponentUnits pendingComponents at h
  cases hd : Discovery.entryFiles? s.disk s.options.basePath with
  | none => simp [hd] at h
  | some entries =>
    rw [hd] at h
    obtain ⟨entry, he, rfl⟩ := List.mem_map.1 h
    obtain ⟨hmem, hnew⟩ := List.mem_filter.1 he
    rw [Single.root, normalized_of_mem_entryFiles hd hmem]
    simpa using hnew

theorem not_hasBundleFor_of_ready {s : Session ε} {single : Single}
    (h : single ∈ readyPackageUnits s) : s.hasBundleFor single.root = false := by
  unfold readyPackageUnits at h
  split at h
  · simp at h
  · obtain ⟨name, hn, rfl⟩ := List.mem_map.1 h
    have hr := (List.mem_filter.1 hn).2
    rw [Single.root, Option.getD_none, joinedNames_singleton]
    unfold readiness at hr
    split at hr
    · simp at hr
    · rename_i hb
      simpa using hb

/-- The units of a bulk request have no entry in the ledger. -/
theorem under_bulk_tasks {s st : Session ε} {request : Request} (hr : request.root? = none)
    (ho : st.options = s.options) (hc : st.config = s.config) :
    ∀ t ∈ request.tasks st, t.Under fun root => s.hasBundleFor root = false := by
  have hb : ∀ root, s.hasBundleFor root = st.hasBundleFor root := by
    intro root
    rw [hasBundleFor, hasBundleFor, ho, hc]
  intro t ht
  simp only [hb]
  cases request with
  | remainingComponents =>
    simp only [Request.tasks, Multiset.mem_coe, List.mem_map] at ht
    obtain ⟨single, hs, rfl⟩ := ht
    exact not_hasBundleFor_of_pending hs
  | remainingPackages =>
    simp only [Request.tasks, Multiset.mem_coe, List.mem_map] at ht
    obtain ⟨single, hs, rfl⟩ := ht
    exact not_hasBundleFor_of_ready hs
  | _ => cases hr

/-- A bulk operation before it looked into the ledger. -/
structure Unstarted (s : Session ε) (request : Request) (st : State ε) : Prop where
  options : st.session.options = s.options
  config : st.session.config = s.config
  lock : st.lock = .free
  tasks : st.tasks = {.called request}

theorem bulk_step {s : Session ε} {request : Request} (hr : request.root? = none) {st st' : State ε}
    (h : Unstarted s request st) (hs : Step st st') : Unstarted s request st' ∨ Kept s st' := by
  obtain ⟨ho, hc, hl, ht⟩ := h
  cases hs with
  | outside s' lock tasks memory disk events => exact .inl ⟨ho, hc, hl, ht⟩
  | start s' lock request' rest _ =>
    obtain ⟨he, hrest⟩ := (Multiset.singleton_eq_cons_iff rest).1 ht.symm
    simp only [Task.called.injEq] at he
    subst he hrest
    have hu : Under (fun root => s.hasBundleFor root = false)
        (⟨s', lock, request.tasks s' + 0⟩ : State ε) := by
      refine ⟨?_, ?_⟩
      · rw [add_zero]
        exact under_bulk_tasks hr ho hc
      · simp only at hl
        rw [hl]
        trivial
    refine .inr ⟨ho, hu, ?_⟩
    intro b hb
    show b ∈ s'.config.bundles
    rw [show s'.config = s.config from hc]
    exact hb
  | trace s' lock single rest => cases ((Multiset.singleton_eq_cons_iff rest).1 ht.symm).1
  | slot s' lock before after root packages saveAs rest =>
    cases ((Multiset.singleton_eq_cons_iff rest).1 ht.symm).1
  | gather s' lock traces packages saveAs rest =>
    cases ((Multiset.singleton_eq_cons_iff rest).1 ht.symm).1
  | acquire s' commit rest => cases ((Multiset.singleton_eq_cons_iff rest).1 ht.symm).1
  | skip s' root tasks => cases hl
  | compile s' root graph tasks _ => cases hl
  | save s' root bundle tasks => cases hl

theorem bulk_run {s : Session ε} {request : Request} (hr : request.root? = none) {st : State ε}
    (h : Steps ⟨s, .free, {.called request}⟩ st) : Unstarted s request st ∨ Kept s st := by
  induction h with
  | refl => exact .inl ⟨rfl, rfl, rfl, rfl⟩
  | tail _ hs ih =>
    rcases ih with hu | hk
    · exact bulk_step hr hu hs
    · exact .inr (kept_step hk hs)

/-- A bulk operation takes nothing off the ledger. -/
theorem bulk_retains {s : Session ε} {request : Request} (hr : request.root? = none) {st : State ε}
    (h : Steps ⟨s, .free, {.called request}⟩ st) {m : String} (hm : s.config.isBundled m = true) :
    st.session.config.isBundled m = true := by
  rcases bulk_run hr h with hu | hk
  · rw [hu.config]
    exact hm
  · obtain ⟨b, hb, hmem⟩ := LoaderConfig.isBundled_iff.1 hm
    exact LoaderConfig.isBundled_iff.2 ⟨b, hk.entries b hb, hmem⟩

/-! ## Operations with one bundle -/

/-- How far an operation that commits under one root has come. -/
inductive Phase (s : Session ε) (root : String) (st : State ε) : Prop where
  /-- Nothing was registered yet, or nothing will be. -/
  | before (config : st.session.config = s.config) (lock : st.lock = .free)
      (tasks : st.tasks.card ≤ 1)
  /-- The lock is held for modules that the ledger does not hold. -/
  | holding (config : st.session.config = s.config) (tasks : st.tasks = 0)
      (unheld : ∀ m ∈ st.lock.modules, s.config.isBundled m = false)
  /-- The modules are registered. -/
  | after (modules : List String) (lock : st.lock = .free) (tasks : st.tasks = 0)
      (unheld : ∀ m ∈ modules, s.config.isBundled m = false)
      (config : st.session.config =
        s.config.register (Target.forRoot root s.options).id modules)

theorem card_next_le (single : Single) (traced : Except Failure Graph) :
    (single.next traced).card ≤ 1 := by
  cases traced <;> simp [Single.next]

theorem card_gathered_le (s : Session ε) (traces : List (String × Except Failure Graph))
    (packages : List String) (saveAs : String) : (gathered s traces packages saveAs).2.card ≤ 1 := by
  unfold gathered
  split
  · simp
  · split <;> simp

theorem card_tasks_le {request : Request} {root : String} (hr : request.root? = some root)
    (s : Session ε) : (request.tasks s).card ≤ 1 := by
  cases request <;> simp [Request.root?, Request.tasks] at hr ⊢

/-- Where there is one task at most, what follows it is all there is. -/
theorem card_replace_le {t : Task} {new rest : Multiset Task} (h : (t ::ₘ rest).card ≤ 1)
    (hn : new.card ≤ 1) : (new + rest).card ≤ 1 := by
  rw [Multiset.card_cons] at h
  rw [Multiset.card_add]
  omega

theorem eq_zero_of_card_cons_le {t : Task} {rest : Multiset Task} (h : (t ::ₘ rest).card ≤ 1) :
    rest = 0 := by
  rw [Multiset.card_cons] at h
  rw [← Multiset.card_eq_zero]
  omega

theorem before_step {s : Session ε} {root : String} {st st' : State ε}
    (hu : Under (· = root) st) (hc : st.session.config = s.config) (hl : st.lock = .free)
    (ht : st.tasks.card ≤ 1) (hs : Step st st') : Phase s root st' := by
  cases hs with
  | outside s' lock tasks memory disk events => exact .before hc hl ht
  | start s' lock request rest _ =>
    obtain ⟨root', hr, -⟩ := hu.tasks (.called request) (Multiset.mem_cons_self _ _)
    exact .before hc hl (card_replace_le ht (card_tasks_le hr s'))
  | trace s' lock single rest =>
    exact .before ((trace_frame s' _).2.2.trans hc) hl (card_replace_le ht (card_next_le single _))
  | slot s' lock before after root' packages saveAs rest =>
    refine .before ((trace_frame s' _).2.2.trans hc) hl ?_
    rw [Multiset.card_cons] at ht ⊢
    exact ht
  | gather s' lock traces packages saveAs rest =>
    exact .before ((gathered_frame s' _ _ _).2.2.trans hc) hl
      (card_replace_le ht (card_gathered_le s' _ _ _))
  | acquire s' commit rest =>
    refine .holding hc (eq_zero_of_card_cons_le ht) ?_
    intro m hm
    rw [← hc]
    exact isBundled_of_mem_modules hm
  | skip s' root' tasks => cases hl
  | compile s' root' graph tasks _ => cases hl
  | save s' root' bundle tasks => cases hl

theorem holding_step {s : Session ε} {root : String} (he : s.engine.ListsOnlyGiven)
    {st st' : State ε} (ho : st.session.options = s.options) (heng : st.session.engine = s.engine)
    (hu : Under (· = root) st) (hc : st.session.config = s.config) (ht : st.tasks = 0)
    (hm : ∀ m ∈ st.lock.modules, s.config.isBundled m = false) (hs : Step st st') :
    Phase s root st' := by
  cases hs with
  | outside s' lock tasks memory disk events => exact .holding hc ht hm
  | start s' lock request rest _ => exact absurd ht (Multiset.cons_ne_zero)
  | trace s' lock single rest => exact absurd ht (Multiset.cons_ne_zero)
  | slot s' lock before after root' packages saveAs rest => exact absurd ht (Multiset.cons_ne_zero)
  | gather s' lock traces packages saveAs rest => exact absurd ht (Multiset.cons_ne_zero)
  | acquire s' commit rest => exact absurd ht (Multiset.cons_ne_zero)
  | skip s' root' tasks => exact .before hc rfl (by rw [show tasks = 0 from ht]; simp)
  | compile s' root' graph tasks _ =>
    refine .holding ((compiled_frame s' root' graph).2.2.trans hc) ht ?_
    intro m hmem
    refine hm m (modules_compiled ?_ root' graph m hmem)
    rw [show s'.engine = s.engine from heng]
    exact he
  | save s' root' bundle tasks =>
    obtain rfl : root' = root := hu.lock
    have hc' : s'.config = s.config := hc
    rcases saved_config_cases s' root' bundle with h | h
    · exact .before (h.trans hc') rfl (by rw [show tasks = 0 from ht]; simp)
    · refine .after bundle.modules rfl ht hm ?_
      rw [h, hc', show s'.options = s.options from ho]

theorem after_step {s : Session ε} {root : String} {st st' : State ε} {modules : List String}
    (hl : st.lock = .free) (ht : st.tasks = 0) (hm : ∀ m ∈ modules, s.config.isBundled m = false)
    (hc : st.session.config = s.config.register (Target.forRoot root s.options).id modules)
    (hs : Step st st') : Phase s root st' := by
  cases hs with
  | outside s' lock tasks memory disk events => exact .after modules hl ht hm hc
  | start s' lock request rest _ => exact absurd ht (Multiset.cons_ne_zero)
  | trace s' lock single rest => exact absurd ht (Multiset.cons_ne_zero)
  | slot s' lock before after root' packages saveAs rest => exact absurd ht (Multiset.cons_ne_zero)
  | gather s' lock traces packages saveAs rest => exact absurd ht (Multiset.cons_ne_zero)
  | acquire s' commit rest => exact absurd ht (Multiset.cons_ne_zero)
  | skip s' root' tasks => cases hl
  | compile s' root' graph tasks _ => cases hl
  | save s' root' bundle tasks => cases hl

/-- What is known at every step of an operation that commits under one root. -/
structure Alone (s : Session ε) (root : String) (st : State ε) : Prop where
  options : st.session.options = s.options
  engine : st.session.engine = s.engine
  under : Under (· = root) st
  phase : Phase s root st

theorem alone_step {s : Session ε} {root : String} (he : s.engine.ListsOnlyGiven)
    {st st' : State ε} (h : Alone s root st) (hs : Step st st') : Alone s root st' := by
  refine ⟨hs.options.trans h.options, hs.engine.trans h.engine, under_step h.under hs, ?_⟩
  cases h.phase with
  | before hc hl ht => exact before_step h.under hc hl ht hs
  | holding hc ht hm => exact holding_step he h.options h.engine h.under hc ht hm hs
  | after modules hl ht hm hc => exact after_step hl ht hm hc hs

theorem alone_run {s : Session ε} {request : Request} {root : String}
    (he : s.engine.ListsOnlyGiven) (hr : request.root? = some root) {st : State ε}
    (h : Steps ⟨s, .free, {.called request}⟩ st) : Alone s root st := by
  induction h with
  | refl =>
    refine ⟨rfl, rfl, ⟨?_, trivial⟩, .before rfl rfl (by simp)⟩
    intro t ht
    rw [Multiset.mem_singleton] at ht
    subst ht
    exact ⟨root, hr, rfl⟩
  | tail _ hs ih => exact alone_step he ih hs

/-- An operation keeps all modules on the ledger if and only if it registers nothing, is a bulk
operation, or bundles a root whose entry holds nothing that the other entries do not hold. -/
theorem retains_iff (s s' : Session ε) (request : Request) (he : s.engine.ListsOnlyGiven)
    (h : Steps ⟨s, .free, {.called request}⟩ ⟨s', .free, 0⟩) :
    (∀ m, s.config.isBundled m = true → s'.config.isBundled m = true) ↔
      s'.config = s.config ∨
        ∀ root, request.root? = some root → ∀ m, s.config.isBundled m = true →
          s.config.isBundledBeside (Target.forRoot root s.options).id m = true := by
  cases hr : request.root? with
  | none =>
    refine ⟨fun _ => .inr ?_, fun _ m hm => bulk_retains hr h hm⟩
    intro root hroot
    cases hroot
  | some root =>
    simp only [Option.some.injEq, forall_eq']
    cases (alone_run he hr h).phase with
    | before hc _ _ =>
      have hc' : s'.config = s.config := hc
      simp [hc']
    | holding hc _ _ =>
      have hc' : s'.config = s.config := hc
      simp [hc']
    | after modules _ _ hm hc =>
      have hc' : s'.config = s.config.register (Target.forRoot root s.options).id modules := hc
      constructor
      · intro hkeep
        refine .inr fun m hheld => ?_
        by_contra hb
        rw [Bool.not_eq_true] at hb
        have hlost := (LoaderConfig.lost_iff hm hheld).2 hb
        rw [← hc', hkeep m hheld] at hlost
        cases hlost
      · rintro (hsame | hbeside) m hheld
        · rw [hsame]
          exact hheld
        · rw [hc']
          exact LoaderConfig.isBundled_register.2 (.inr (hbeside m hheld))

/-! ## A name that is used twice -/

/-- The session after the component `a` was bundled as `x`. -/
def groupFirst : Session (List Engine.Call) := Request.perform pairStart (.components ["a"] "x")

/-- The session after `a` and `b` were bundled as `x`. -/
def groupSecond : Session (List Engine.Call) := Request.perform groupFirst (.components ["a", "b"] "x")

theorem steps_groupSecond :
    Steps ⟨groupFirst, .free, {.called (.components ["a", "b"] "x")}⟩ ⟨groupSecond, .free, 0⟩ :=
  perform_steps groupFirst (.components ["a", "b"] "x") 0

theorem listsOnlyGiven_groupFirst : groupFirst.engine.ListsOnlyGiven :=
  Engine.listsOnlyGiven_of_listsGiven pairTable.listsGiven_naming

theorem retains_iff_group :
    groupFirst.engine.ListsOnlyGiven ∧
      Steps ⟨groupFirst, .free, {.called (.components ["a", "b"] "x")}⟩ ⟨groupSecond, .free, 0⟩ ∧
      ((∀ m, groupFirst.config.isBundled m = true → groupSecond.config.isBundled m = true) ↔
        groupSecond.config = groupFirst.config ∨
          ∀ root, (Request.components ["a", "b"] "x").root? = some root →
            ∀ m, groupFirst.config.isBundled m = true →
              groupFirst.config.isBundledBeside (Target.forRoot root groupFirst.options).id m = true) :=
  ⟨listsOnlyGiven_groupFirst, steps_groupSecond,
    retains_iff groupFirst groupSecond _ listsOnlyGiven_groupFirst steps_groupSecond⟩

/-- The second group has the modules of both components in its trace, and its bundle takes the place
of the first one with `b` alone. -/
theorem group_forgets :
    ¬ ∀ (s s' : Session (List Engine.Call)) (request : Request), s.engine.ListsGiven →
      Reachable pairStart ⟨s, .free, 0⟩ →
      Steps ⟨s, .free, {.called request}⟩ ⟨s', .free, 0⟩ →
      ∀ m, s.config.isBundled m = true → s'.config.isBundled m = true := by
  intro h
  have hr : Reachable pairStart ⟨groupFirst, .free, 0⟩ := reachable_perform .start _
  have hkept := h groupFirst groupSecond _ pairTable.listsGiven_naming hr steps_groupSecond
    "shared.js" (by decide +kernel)
  have hlost : groupSecond.config.isBundled "shared.js" = false := by decide +kernel
  rw [hkept] at hlost
  cases hlost

end BundleLedger.Concurrency
