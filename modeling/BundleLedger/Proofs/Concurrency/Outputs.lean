import BundleLedger.Proofs.Bundle.Saving
import BundleLedger.Proofs.Concurrency.Retention

/-!
# The files behind the ledger

The ledger says which modules a bundle holds, and whoever reads it takes the bundle from its file. A
run is recorded together with the bundles that it registers (`Recorded`), so that what the ledger
says and what the files hold can be traced back to one compilation.

The invariant (`Agrees`) is about the last registration under each id. A save that succeeds puts a
new registration in the place of the old one, with its files. A save that fails may leave a new map
beside an old bundle, but not where the old bundle was registered: there the bundle file exists, and
only a failure to write that one comes after the map was written.

**Hypotheses.** They are conditions on the steps of a run. Bundles are saved under names that are `.`
or plain paths (`IsRootName`), and a bundle file that exists can be written again
(`Bundle.Overwrites`). All steps but saves leave what stands in the output directory, and the way to
it (`Spares`), and the configuration is written to none of the files of a bundle (`ConfigApart`).

Results:

* `Recorded`: runs with the bundles that they registered.
* `agrees_step`, `agrees_save` and `agrees_saveConfig`: the invariant.
* `recorded_agrees`: the ledger and the files of every state.
-/
namespace BundleLedger.Concurrency

open Session Target Disk

variable {ε : Type}

/-! ## Recorded runs -/

/-- A bundle that was entered in the ledger, and the root that it was saved under. -/
structure Registration where
  root : String
  bundle : Bundle
  deriving DecidableEq, Repr

def Registration.target (options : Options) (r : Registration) : Target :=
  Target.forRoot r.root options

/-- What a save enters in the ledger. -/
def registered (s : Session ε) (root : String) (bundle : Bundle) : List Registration :=
  match (bundle.save root s.options s.config s.disk).1 with
  | .ok (some _) => [⟨root, bundle⟩]
  | _ => []

/-- What was registered last under an id. -/
def latest? (options : Options) (log : List Registration) (id : String) : Option Registration :=
  log.reverse.find? fun r => decide ((r.target options).id = id)

/-- What stands in a directory stays as it is, and so do the directories on the way there. -/
structure Spares (dir : List Char) (d d' : Disk) : Prop where
  workingDir : d'.workingDir = d.workingDir
  below : ∀ p, d.led dir <+: p → (d.node? p).isSome → d'.node? p = d.node? p
  way : ∀ p ∈ d.way dir, d.node? p = some .directory → d'.node? p = some .directory

/-- The configuration file is none of the files that were registered. -/
def ConfigApart (s : Session ε) (log : List Registration) : Prop :=
  ∀ r ∈ log, ∀ path ∈ [(r.target s.options).path, (r.target s.options).mapPath],
    s.disk.led path.toList ≠ s.disk.written s.options.systemJsConfig.toList

/-- The states that a session can get into, each with what was registered on the way. Requests come
at any time, their steps are taken in any order, and the configuration may be saved whenever the lock
is free. -/
inductive Recorded (s₀ : Session ε) : State ε → List Registration → Prop where
  | start : Recorded s₀ ⟨s₀, .free, 0⟩ []
  | call (st : State ε) (log : List Registration) (request : Request) (h : Recorded s₀ st log) :
      Recorded s₀ ⟨st.session, st.lock, .called request ::ₘ st.tasks⟩ log
  /-- Any step but a save: who holds the lock to save a bundle keeps it. -/
  | step (st st' : State ε) (log : List Registration) (h : Recorded s₀ st log) (hs : Step st st')
      (hlock : ∀ root bundle, st.lock = .saving root bundle → st'.lock = st.lock)
      (hfiles : Spares st.session.options.dest.toList st.session.disk st'.session.disk) :
      Recorded s₀ st' log
  | save (s : Session ε) (root : String) (bundle : Bundle) (tasks : Multiset Task)
      (log : List Registration) (h : Recorded s₀ ⟨s, .saving root bundle, tasks⟩ log)
      (hroot : IsRootName root)
      (hwrite : bundle.Overwrites (Target.forRoot root s.options) s.options s.disk) :
      Recorded s₀ ⟨saved s root bundle, .free, tasks⟩ (log ++ registered s root bundle)
  | saveConfig (s : Session ε) (tasks : Multiset Task) (log : List Registration)
      (h : Recorded s₀ ⟨s, .free, tasks⟩ log) (hconfig : ConfigApart s log) :
      Recorded s₀ ⟨s.saveConfig.2, .free, tasks⟩ log

theorem latest?_concat (options : Options) (log : List Registration) (r : Registration) (id : String) :
    latest? options (log ++ [r]) id =
      if (r.target options).id = id then some r else latest? options log id := by
  rw [latest?, List.reverse_append, List.reverse_singleton, List.singleton_append, List.find?_cons]
  by_cases h : (r.target options).id = id <;> simp [h, latest?]

theorem latest?_mem {options : Options} {log : List Registration} {id : String} {r : Registration}
    (h : latest? options log id = some r) : r ∈ log :=
  List.mem_reverse.1 (List.mem_of_find?_eq_some h)

theorem latest?_id {options : Options} {log : List Registration} {id : String} {r : Registration}
    (h : latest? options log id = some r) : (r.target options).id = id := by
  simpa using List.find?_some h

theorem Spares.refl (dir : List Char) (d : Disk) : Spares dir d d :=
  ⟨rfl, fun _ _ _ => rfl, fun _ _ h => h⟩

/-! ## Files of a registration -/

/-- The files of a registration hold its bundle: the compiled text, with a reference to the map
exactly where maps are asked for and there is one, and then the map beside it. -/
structure OnDisk (options : Options) (d : Disk) (r : Registration) : Prop where
  bundle : d.readText (r.target options).path =
    .ok (if options.sourceMaps = true ∧ r.bundle.sourceMap.isSome = true
      then r.bundle.source ++ Bundle.mapReference (r.target options) else r.bundle.source)
  map : ∀ map, options.sourceMaps = true → r.bundle.sourceMap = some map →
    ∃ text, d.readText (r.target options).mapPath = .ok text ∧
      if options.relativeSourceMaps then
        SourceMap.relocate? map (String.ofList (FilePath.prefixBetween d.workingPath
          (r.target options).dir.toList options.baseUrl.toList)) = some text
      else text = map

variable {options : Options} {d d' : Disk} {r : Registration}

/-- The files stay as long as both texts are read as before. -/
theorem OnDisk.of_reads (h : OnDisk options d r) (hwd : d'.workingDir = d.workingDir)
    (hreads : ∀ path ∈ [(r.target options).path, (r.target options).mapPath], ∀ text,
      d.readText path = .ok text → d'.readText path = .ok text) : OnDisk options d' r := by
  simp only [List.mem_cons, List.not_mem_nil, or_false, forall_eq_or_imp, forall_eq] at hreads
  refine ⟨hreads.1 _ h.bundle, ?_⟩
  intro map hs hm
  obtain ⟨text, hread, htext⟩ := h.map map hs hm
  refine ⟨text, hreads.2 text hread, ?_⟩
  rwa [workingPath, hwd]

/-- A save that succeeded leaves the files of what it registered. -/
theorem onDisk_of_write {root : String} (hroot : IsRootName root) {b : Bundle}
    (h : b.write (Target.forRoot root options) options d = (.ok (), d')) :
    OnDisk options d' ⟨root, b⟩ := by
  have hne : d.led (Target.forRoot root options).mapPath.toList ≠
      d.written (Target.forRoot root options).path.toList := by
    rw [written_path hroot]
    exact (led_path_ne_led_mapPath hroot hroot).symm
  have hwd := Bundle.write_keeps d (Target.forRoot root options) b options
  rw [h] at hwd
  obtain ⟨map?, hmap, hholds⟩ := Bundle.write_ok hne h
  rw [← Bundle.mapText?_congr _ _ _ hwd.workingDir] at hmap
  obtain ⟨hsome, htext⟩ := Bundle.mapText?_ok hmap
  refine ⟨?_, ?_⟩
  · rw [show Registration.target options ⟨root, b⟩ = Target.forRoot root options from rfl,
      hholds.bundle]
    simp only [hsome]
  · intro map hs hm
    obtain ⟨text, heq, hrelocated⟩ := htext map hs hm
    exact ⟨text, hholds.map text heq, hrelocated⟩

/-- Steps that spare the output directory leave the files of a root. -/
theorem Spares.readText {root : String} {ending : List Char} {path text : String}
    (h : Spares options.dest.toList d d') (hroot : IsRootName root) (hslash : '/' ∉ ending)
    (hlong : 2 ≤ ending.length) (hpath : path.toList = file options root ending)
    (hread : d.readText path = .ok text) : d'.readText path = .ok text := by
  refine readText_of_standing h.workingDir ?_ ?_ hread <;> rw [hpath]
  · intro p hp hdir
    rcases mem_way_file hroot hslash hlong hp with hway | hbelow
    · exact h.way p hway hdir
    · rw [h.below p hbelow (by rw [hdir]; rfl), hdir]
  · refine h.below _ ?_
    rw [led_file hroot hslash hlong]
    exact List.prefix_append _ _

theorem OnDisk.spares (h : OnDisk options d r) (hroot : IsRootName r.root)
    (hs : Spares options.dest.toList d d') : OnDisk options d' r := by
  refine h.of_reads hs.workingDir ?_
  simp only [List.mem_cons, List.not_mem_nil, or_false, forall_eq_or_imp, forall_eq]
  exact ⟨fun text => hs.readText hroot (by decide) (by decide) (path_eq hroot),
    fun text => hs.readText hroot (by decide) (by decide) (mapPath_eq hroot)⟩

theorem OnDisk.keeps {places : List Place} (h : OnDisk options d r) (hk : Keeps places d d')
    (hp : ∀ path ∈ [(r.target options).path, (r.target options).mapPath],
      d.led path.toList ∉ places) : OnDisk options d' r :=
  h.of_reads hk.workingDir fun path hpath _ hread => hk.readText (hp path hpath) hread

/-- The files of another id are not touched by a save. -/
theorem OnDisk.save {root : String} (h : OnDisk options d r) (hroot : IsRootName root)
    (hr : IsRootName r.root) (hid : (r.target options).id ≠ (Target.forRoot root options).id)
    (b : Bundle) (c : LoaderConfig) : OnDisk options (b.save root options c d).2.2 r := by
  have hstem : stem r.root ≠ stem root := fun he => hid ((id_eq_iff_stem hr hroot options).2 he)
  refine h.keeps (Bundle.save_keeps d root b options c) ?_
  simp only [written_path hroot, written_mapPath hroot, List.mem_cons, List.not_mem_nil, or_false,
    forall_eq_or_imp, forall_eq, not_or, Registration.target]
  exact ⟨⟨fun he => hstem (led_path_inj hr hroot he), led_path_ne_led_mapPath hr hroot⟩,
    (led_path_ne_led_mapPath hroot hr).symm, fun he => hstem (led_mapPath_inj hr hroot he)⟩

/-- A save that fails leaves the files of its own id, as their bundle can be written again. -/
theorem OnDisk.failed {root : String} {b : Bundle} {e : Failure} (h : OnDisk options d r)
    (hroot : IsRootName root) (hr : IsRootName r.root)
    (hid : (r.target options).id = (Target.forRoot root options).id)
    (hw : b.Overwrites (Target.forRoot root options) options d)
    (he : b.write (Target.forRoot root options) options d = (.error e, d')) :
    OnDisk options d' r := by
  have hpath : (r.target options).path = (Target.forRoot root options).path := by
    rw [← String.toList_inj, Registration.target, path_eq hr, path_eq hroot, file, file,
      forRoot_eq hr, forRoot_eq hroot, (id_eq_iff_stem hr hroot options).1 hid]
  rcases Bundle.write_error_cases he with hk | ⟨error, rfl⟩
  · exact h.keeps hk fun _ _ => List.not_mem_nil
  · have hread := h.bundle
    rw [hpath] at hread
    exact absurd (by rw [he]) (hw _ hread error)

/-! ## The invariant -/

/-- A bundle that the engine made of some graph. -/
def CompiledBy (engine : Engine ε) (options : Options) (bundle : Bundle) : Prop :=
  ∃ graph memory disk, (engine.compile graph (compileOptions options) memory disk).1 = .ok bundle

/-- The ledger and the files say the same about what was registered. -/
structure Agrees (s₀ : Session ε) (st : State ε) (log : List Registration) : Prop where
  options : st.session.options = s₀.options
  engine : st.session.engine = s₀.engine
  others : st.session.config.otherEntries = s₀.config.otherEntries
  holder : ∀ root bundle, st.lock = .saving root bundle → CompiledBy s₀.engine s₀.options bundle
  names : ∀ r ∈ log, IsRootName r.root
  compiled : ∀ r ∈ log, CompiledBy s₀.engine s₀.options r.bundle
  ledger : ∀ id, Entries.get? st.session.config.bundles id =
    match latest? s₀.options log id with
    | some r => some r.bundle.modules
    | none => Entries.get? s₀.config.bundles id
  files : ∀ id r, latest? s₀.options log id = some r → OnDisk s₀.options st.session.disk r

/-- A step that is no save leaves the ledger. -/
theorem Step.config_of_lock {st st' : State ε} (h : Step st st')
    (hl : ∀ root bundle, st.lock = .saving root bundle → st'.lock = st.lock) :
    st'.session.config = st.session.config := by
  cases h with
  | save s root bundle _ => cases hl root bundle rfl
  | trace s _ single _ => exact (trace_frame s _).2.2
  | slot s _ _ _ root _ _ _ => exact (trace_frame s _).2.2
  | gather s _ traces packages saveAs _ => exact (gathered_frame s _ _ _).2.2
  | compile s root graph _ _ => exact (compiled_frame s root graph).2.2
  | outside | start | acquire | skip => rfl

/-- Who comes to hold the lock for a save has compiled the bundle. -/
theorem Step.saving {st st' : State ε} (h : Step st st') {root : String} {bundle : Bundle}
    (hl : st'.lock = .saving root bundle) : st.lock = .saving root bundle ∨
      CompiledBy st.session.engine st.session.options bundle := by
  cases h with
  | compile s root' graph _ _ =>
    right
    simp only [Concurrency.compiled] at hl
    split at hl
    · cases hl
    · rename_i heq
      cases hl
      exact ⟨graph, s.memory, s.disk, by rw [heq]⟩
  | outside | start | trace | slot | gather => exact .inl hl
  | acquire | skip | save => cases hl

theorem agrees_step {s₀ : Session ε} {st st' : State ε} {log : List Registration}
    (h : Agrees s₀ st log) (hs : Step st st')
    (hlock : ∀ root bundle, st.lock = .saving root bundle → st'.lock = st.lock)
    (hfiles : Spares st.session.options.dest.toList st.session.disk st'.session.disk) :
    Agrees s₀ st' log where
  options := hs.options.trans h.options
  engine := hs.engine.trans h.engine
  others := by rw [hs.config_of_lock hlock, h.others]
  holder root bundle hl := by
    rcases hs.saving hl with hl | hc
    · exact h.holder root bundle hl
    · rwa [h.engine, h.options] at hc
  names := h.names
  compiled := h.compiled
  ledger id := by rw [hs.config_of_lock hlock, h.ledger]
  files id r hr := by
    rw [h.options] at hfiles
    exact (h.files id r hr).spares (h.names r (latest?_mem hr)) hfiles

/-- What a save comes to: nothing is registered and the ledger stays, or the bundle is. -/
theorem saved_cases (s : Session ε) (root : String) (bundle : Bundle) :
    (registered s root bundle = [] ∧ (saved s root bundle).config = s.config ∧
      ((saved s root bundle).disk = s.disk ∨ ∃ e, bundle.write (Target.forRoot root s.options)
        s.options s.disk = (.error e, (saved s root bundle).disk))) ∨
    (registered s root bundle = [⟨root, bundle⟩] ∧
      (saved s root bundle).config =
        s.config.register (Target.forRoot root s.options).id bundle.modules ∧
      bundle.write (Target.forRoot root s.options) s.options s.disk =
        (.ok (), (saved s root bundle).disk)) := by
  rw [saved_config, saved_disk, registered]
  rcases Bundle.save_cases s.disk root bundle s.options s.config with
    h | ⟨e, d', hw, h⟩ | ⟨d', hw, h⟩ <;> rw [h]
  · exact .inl ⟨rfl, rfl, .inl rfl⟩
  · exact .inl ⟨rfl, rfl, .inr ⟨e, hw⟩⟩
  · exact .inr ⟨rfl, rfl, hw⟩

section

variable {s₀ s : Session ε} {root : String} {bundle : Bundle} {tasks : Multiset Task}
  {log : List Registration}

/-- However a save ends, the files of other ids stay. -/
theorem Agrees.files_of_other (h : Agrees s₀ ⟨s, .saving root bundle, tasks⟩ log)
    (hroot : IsRootName root) {id : String} {r : Registration}
    (hr : latest? s₀.options log id = some r)
    (hid : (r.target s₀.options).id ≠ (Target.forRoot root s₀.options).id) :
    OnDisk s₀.options (saved s root bundle).disk r := by
  have ho : s.options = s₀.options := h.options
  rw [saved_disk, ho]
  exact (h.files id r hr).save hroot (h.names r (latest?_mem hr)) hid bundle s.config

/-- A save that registers nothing: if it failed, the files of its own id stay as well. -/
theorem Agrees.unregistered (h : Agrees s₀ ⟨s, .saving root bundle, tasks⟩ log)
    (hroot : IsRootName root)
    (hwrite : bundle.Overwrites (Target.forRoot root s.options) s.options s.disk)
    (hconfig : (saved s root bundle).config = s.config)
    (hdisk : (saved s root bundle).disk = s.disk ∨ ∃ e, bundle.write (Target.forRoot root s.options)
      s.options s.disk = (.error e, (saved s root bundle).disk)) :
    Agrees s₀ ⟨saved s root bundle, .free, tasks⟩ log where
  options := (saved_options ..).trans h.options
  engine := (saved_engine ..).trans h.engine
  others := (congrArg LoaderConfig.otherEntries hconfig).trans h.others
  holder _ _ hl := by cases hl
  names := h.names
  compiled := h.compiled
  ledger id := (congrArg (fun c => Entries.get? c.bundles id) hconfig).trans (h.ledger id)
  files id r hr := by
    show OnDisk s₀.options (saved s root bundle).disk r
    rcases hdisk with hdisk | ⟨e, he⟩
    · rw [hdisk]
      exact h.files id r hr
    · by_cases hid : (r.target s₀.options).id = (Target.forRoot root s₀.options).id
      · rw [show s.options = s₀.options from h.options] at hwrite he
        exact (h.files id r hr).failed hroot (h.names r (latest?_mem hr)) hid hwrite he
      · exact h.files_of_other hroot hr hid

/-- A save that registers its bundle takes the place of what had its id. -/
theorem Agrees.registered (h : Agrees s₀ ⟨s, .saving root bundle, tasks⟩ log)
    (hroot : IsRootName root)
    (hconfig : (saved s root bundle).config =
      s.config.register (Target.forRoot root s.options).id bundle.modules)
    (hdisk : bundle.write (Target.forRoot root s.options) s.options s.disk =
      (.ok (), (saved s root bundle).disk)) :
    Agrees s₀ ⟨saved s root bundle, .free, tasks⟩ (log ++ [⟨root, bundle⟩]) := by
  have ho : s.options = s₀.options := h.options
  have hmem : ∀ {P : Registration → Prop}, (∀ r ∈ log, P r) → P ⟨root, bundle⟩ →
      ∀ r ∈ log ++ [⟨root, bundle⟩], P r := by
    intro P hlog hnew
    rw [List.forall_mem_append]
    exact ⟨hlog, by simpa using hnew⟩
  refine ⟨(saved_options ..).trans h.options, (saved_engine ..).trans h.engine, ?_,
    fun _ _ hl => (by cases hl), hmem h.names hroot, hmem h.compiled (h.holder root bundle rfl),
    ?_, ?_⟩
  · show (saved s root bundle).config.otherEntries = _
    rw [hconfig, LoaderConfig.otherEntries_register]
    exact h.others
  · intro id
    have hledger : Entries.get? s.config.bundles id = _ := h.ledger id
    show Entries.get? (saved s root bundle).config.bundles id = _
    rw [hconfig, LoaderConfig.get?_bundles_register, latest?_concat, hledger, ho,
      show Registration.target s₀.options ⟨root, bundle⟩ = Target.forRoot root s₀.options from rfl]
    split <;> rfl
  · intro id r hr
    show OnDisk s₀.options (saved s root bundle).disk r
    rw [latest?_concat] at hr
    split at hr
    · cases hr
      rw [ho] at hdisk
      exact onDisk_of_write hroot hdisk
    · rename_i hid
      refine h.files_of_other hroot hr fun he => hid ?_
      rw [← latest?_id hr, he]
      rfl

theorem agrees_save (h : Agrees s₀ ⟨s, .saving root bundle, tasks⟩ log) (hroot : IsRootName root)
    (hwrite : bundle.Overwrites (Target.forRoot root s.options) s.options s.disk) :
    Agrees s₀ ⟨saved s root bundle, .free, tasks⟩ (log ++ registered s root bundle) := by
  rcases saved_cases s root bundle with ⟨hnone, hconfig, hdisk⟩ | ⟨hsome, hconfig, hdisk⟩
  · rw [hnone, List.append_nil]
    exact h.unregistered hroot hwrite hconfig hdisk
  · rw [hsome]
    exact h.registered hroot hconfig hdisk

end

theorem saveConfig_frame (s : Session ε) :
    s.saveConfig.2.options = s.options ∧ s.saveConfig.2.engine = s.engine ∧
      s.saveConfig.2.config = s.config ∧
      s.saveConfig.2.disk = (s.disk.write s.options.systemJsConfig s.render).2 := by
  unfold saveConfig
  dsimp only
  split <;> rename_i heq <;> rw [heq] <;> exact ⟨rfl, rfl, rfl, rfl⟩

theorem agrees_saveConfig {s₀ s : Session ε} {tasks : Multiset Task} {log : List Registration}
    (h : Agrees s₀ ⟨s, .free, tasks⟩ log) (hconfig : ConfigApart s log) :
    Agrees s₀ ⟨s.saveConfig.2, .free, tasks⟩ log := by
  obtain ⟨ho, he, hc, hd⟩ := saveConfig_frame s
  refine ⟨ho.trans h.options, he.trans h.engine, ?_, fun _ _ hl => (by cases hl), h.names,
    h.compiled, ?_, ?_⟩
  · show s.saveConfig.2.config.otherEntries = _
    rw [hc]
    exact h.others
  · intro id
    show Entries.get? s.saveConfig.2.config.bundles id = _
    rw [hc]
    exact h.ledger id
  · intro id r hr
    show OnDisk s₀.options s.saveConfig.2.disk r
    have hopt : s.options = s₀.options := h.options
    have hkeeps := Disk.write_keeps s.disk s.options.systemJsConfig s.render
    rw [← hd] at hkeeps
    refine (h.files id r hr).keeps hkeeps fun path hpath => ?_
    rw [List.mem_singleton]
    rw [← hopt] at hpath
    exact hconfig r (latest?_mem hr) path hpath

theorem agrees_recorded {s₀ : Session ε} {st : State ε} {log : List Registration}
    (h : Recorded s₀ st log) : Agrees s₀ st log := by
  induction h with
  | start =>
    exact ⟨rfl, rfl, rfl, fun _ _ hl => (by cases hl), fun _ hr => (by cases hr),
      fun _ hr => (by cases hr), fun _ => rfl, fun _ _ hr => (by cases hr)⟩
  | call st log request _ ih => exact { ih with }
  | step st st' log _ hs hlock hfiles ih => exact agrees_step ih hs hlock hfiles
  | save s root bundle tasks log _ hroot hwrite ih => exact agrees_save ih hroot hwrite
  | saveConfig s tasks log _ hconfig ih => exact agrees_saveConfig ih hconfig

theorem otherEntries_start (options : Options) (engine : Engine ε) (memory : ε)
    (config : LoaderConfig) (disk : Disk) :
    (Session.start options engine memory config disk).config.otherEntries = config.otherEntries := by
  simp only [Session.start]
  split
  · rfl
  · exact LoaderConfig.otherEntries_clearBundles config

/-- In every state of a recorded run: a bundle that was registered last under its id is in the ledger
with the modules that the engine listed for it, and its files hold what the engine made, text and map.
Under an id without a registration the ledger says what it said at the start, and the configuration
sets everything else as it was loaded. -/
theorem recorded_agrees (options : Options) (engine : Engine ε) (memory : ε) (config : LoaderConfig)
    (disk : Disk) (st : State ε) (log : List Registration)
    (h : Recorded (Session.start options engine memory config disk) st log) :
    (∀ id r, latest? options log id = some r →
      Entries.get? st.session.config.bundles id = some r.bundle.modules ∧
        CompiledBy engine options r.bundle ∧ OnDisk options st.session.disk r) ∧
      (∀ id, latest? options log id = none → Entries.get? st.session.config.bundles id =
        Entries.get? (Session.start options engine memory config disk).config.bundles id) ∧
      st.session.config.otherEntries = config.otherEntries := by
  have ha := agrees_recorded h
  refine ⟨?_, ?_, ha.others.trans (otherEntries_start ..)⟩
  · intro id r hr
    have hledger := ha.ledger id
    rw [show latest? (Session.start options engine memory config disk).options log id = some r
      from hr] at hledger
    exact ⟨hledger, ha.compiled r (latest?_mem hr), ha.files id r hr⟩
  · intro id hr
    have hledger := ha.ledger id
    rwa [show latest? (Session.start options engine memory config disk).options log id = none
      from hr] at hledger

/-! ## One component with its map -/

/-- A step that is no save and spares the output directory. -/
structure Quiet (st st' : State ε) : Prop where
  step : Step st st'
  lock : ∀ root bundle, st.lock = .saving root bundle → st'.lock = st.lock
  files : Spares st.session.options.dest.toList st.session.disk st'.session.disk

theorem Recorded.quiet {s₀ : Session ε} {st st' : State ε} {log : List Registration}
    (h : Recorded s₀ st log) (hq : Relation.ReflTransGen Quiet st st') : Recorded s₀ st' log := by
  induction hq with
  | refl => exact h
  | tail _ hstep ih => exact ih.step _ _ _ hstep.step hstep.lock hstep.files

/-- A single that nothing comes between has its bundle ready to be saved. -/
theorem Single.quiet {s s' s'' : Session ε} {rest : Multiset Task} {single : Single} {graph : Graph}
    {bundle : Bundle} (ht : s.trace single.expression = (.ok graph, s'))
    (hm : (single.commit graph).modules s' ≠ [])
    (hc : compiled s' single.root ((single.commit graph).modules s') =
      (s'', .saving single.root bundle))
    (htrace : Spares s.options.dest.toList s.disk s'.disk)
    (hcompile : Spares s'.options.dest.toList s'.disk s''.disk) :
    Relation.ReflTransGen Quiet ⟨s, .free, .tracing single ::ₘ rest⟩
      ⟨s'', .saving single.root bundle, rest⟩ := by
  have htraced : Quiet ⟨s, .free, .tracing single ::ₘ rest⟩
      ⟨s', .free, .waiting (single.commit graph) ::ₘ rest⟩ := by
    have hstep := Step.trace s .free single rest
    rw [ht] at hstep
    exact ⟨hstep, fun _ _ hl => (by cases hl), htrace⟩
  have hheld : Quiet ⟨s', .free, .waiting (single.commit graph) ::ₘ rest⟩
      ⟨s', .compiling single.root ((single.commit graph).modules s'), rest⟩ := by
    have hstep := Step.acquire s' (single.commit graph) rest
    rw [Single.root_commit] at hstep
    exact ⟨hstep, fun _ _ hl => (by cases hl), .refl _ _⟩
  have hcompiled : Quiet ⟨s', .compiling single.root ((single.commit graph).modules s'), rest⟩
      ⟨s'', .saving single.root bundle, rest⟩ := by
    have hstep := Step.compile s' single.root _ rest hm
    rw [hc] at hstep
    exact ⟨hstep, fun _ _ hl => (by cases hl), hcompile⟩
  exact ((Relation.ReflTransGen.single htraced).tail hheld).tail hcompiled

/-- A session at rest in which a single is asked for and runs through is recorded. -/
theorem Recorded.single {s₀ s s' s'' : Session ε} {log : List Registration}
    (h : Recorded s₀ ⟨s, .free, 0⟩ log) (request : Request) (single : Single)
    (hr : request.tasks s = {.tracing single}) {graph : Graph} {bundle : Bundle}
    (ht : s.trace single.expression = (.ok graph, s'))
    (hm : (single.commit graph).modules s' ≠ [])
    (hc : compiled s' single.root ((single.commit graph).modules s') =
      (s'', .saving single.root bundle))
    (htrace : Spares s.options.dest.toList s.disk s'.disk)
    (hcompile : Spares s'.options.dest.toList s'.disk s''.disk) (hroot : IsRootName single.root)
    (hwrite : bundle.Overwrites (Target.forRoot single.root s''.options) s''.options s''.disk) :
    Recorded s₀ ⟨saved s'' single.root bundle, .free, 0⟩
      (log ++ registered s'' single.root bundle) := by
  have hstart := (h.call _ _ request).step _ _ _ (.start s .free request 0 fun _ => rfl)
    (fun _ _ hl => (by cases hl)) (.refl _ _)
  rw [hr, add_zero, ← Multiset.cons_zero] at hstart
  have hsaving := hstart.quiet (Single.quiet ht hm hc htrace hcompile)
  exact hsaving.save _ _ _ _ _ hroot hwrite

/-- What the engine makes of the first component. -/
def pairBundle : Bundle where
  source := "/*a/index.js*/\n/*shared.js*/"
  sourceMap := some
    "\x7b\"version\":3,\"sources\":[\"a/index.js\",\"shared.js\"],\"mappings\":\"\"\x7d"
  modules := ["a/index.js", "shared.js"]

def pairCompiled : Session (List Engine.Call) :=
  (compiled pairStart "a" [("a/index.js", pairTable.record "a/index.js" "a/index.js"),
    ("shared.js", pairTable.record "a/index.js" "shared.js")]).1

theorem overwrites_pairBundle :
    pairBundle.Overwrites (Target.forRoot "a" pairCompiled.options) pairCompiled.options
      pairCompiled.disk := by
  have hnone : (pairCompiled.disk.readText (Target.forRoot "a" pairCompiled.options).path).toBool =
      false := by decide +kernel
  intro text htext
  rw [htext] at hnone
  cases hnone

theorem recorded_pair :
    Recorded pairStart ⟨saved pairCompiled "a" pairBundle, .free, 0⟩ [⟨"a", pairBundle⟩] := by
  have hstart : Recorded pairStart ⟨pairStart, .free, 0⟩ [] := .start
  have h := hstart.single (.component "a/index.js")
    (.component "a/index.js") rfl rfl (by decide +kernel) rfl (.refl _ _) (.refl _ _)
    (by decide +kernel) overwrites_pairBundle
  exact h

theorem recorded_agrees_pair :
    latest? pairStart.options [⟨"a", pairBundle⟩] "bundles/a" = some ⟨"a", pairBundle⟩ ∧
      Recorded pairStart ⟨saved pairCompiled "a" pairBundle, .free, 0⟩ [⟨"a", pairBundle⟩] ∧
      (∀ id r, latest? pairStart.options [⟨"a", pairBundle⟩] id = some r →
        Entries.get? (saved pairCompiled "a" pairBundle).config.bundles id = some r.bundle.modules ∧
          CompiledBy pairTable.naming pairStart.options r.bundle ∧
          OnDisk pairStart.options (saved pairCompiled "a" pairBundle).disk r) ∧
      (∀ id, latest? pairStart.options [⟨"a", pairBundle⟩] id = none →
        Entries.get? (saved pairCompiled "a" pairBundle).config.bundles id =
          Entries.get? pairStart.config.bundles id) ∧
      (saved pairCompiled "a" pairBundle).config.otherEntries = [] :=
  ⟨by decide +kernel, recorded_pair, recorded_agrees _ _ _ _ _ _ _ recorded_pair⟩

end BundleLedger.Concurrency
