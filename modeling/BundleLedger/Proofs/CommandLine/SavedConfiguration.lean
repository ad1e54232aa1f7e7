import BundleLedger.Proofs.Concurrency.Actions
import BundleLedger.Proofs.LoaderFile.RoundTrip

/-!
# The configuration file is saved after success

The loader configuration holds the ledger, and one run of the program may overwrite it. Here a whole
run is followed, from the command line to the exit code, for every way in which it can go: the
options file or the configuration cannot be read, there is no engine, the command fails somewhere, or
the last write does. The text that the file has when the run starts is carried along the actions of
the command; only a run that gets through all of them puts another text there, and this is the
configuration with everything that was registered on the way.

The program asks an engine in a program of its own. Nothing here depends on how that one answers, so
a run is made for any engine (`launch`), and `run` is the run with the engine of the program.

**Hypotheses** (`Undisturbed`). They are conditions on the actions of the run, each in the session in
which it is taken: the engine leaves the configuration file as it is, and no source map and no bundle
that is written has its place.

Results:

* `run_eq_launch`: the program is one of these runs.
* `apply_readText` and `undisturbed_readText`: the file reads as before after each action, and so after
  all.
* `perform_disk` and `perform_code`: what is left of a command, and its exit code.
* `perform_saves`: what a command leaves in the file.
* `launch_saves`: what a whole run does, also one that gets no session.
-/
namespace BundleLedger.CommandLine

open Session Concurrency Disk

variable {ε : Type}

/-! ## Runs with any engine -/

/-- A session with an engine that is made from a program and what it is sent. -/
def openWith (engineOf : String → LoaderConfig → Engine ε) (memory : ε) (env : Environment)
    (disk : Disk) (options : Options) : Except Failure (Session ε) :=
  match LoaderConfig.load disk options.systemJsConfig with
  | .error e => .error (.config e)
  | .ok config =>
    match Program.find? disk (searchPath env) options.engine with
    | none => .error (.engine (.notFound options.engine))
    | some program =>
      let sent := config.forEngine (String.ofList disk.workingPath) options.baseUrl
      .ok (Session.start options (engineOf program sent) memory config disk)

/-- Runs a command line with an engine that is made from a program and what it is sent. -/
def launch (engineOf : String → LoaderConfig → Engine ε) (memory : ε) (env : Environment)
    (disk : Disk) (arguments : List String) : Output :=
  match Invocation.read arguments with
  | .error refusal => refused disk refusal
  | .ok i =>
    match loadOptions env disk i with
    | .error r => ⟨1, "", r.text, disk⟩
    | .ok options =>
      match openWith engineOf memory env disk options with
      | .error e => ⟨1, "", (Report.ofFailure "initializing bundler" e).text, disk⟩
      | .ok s => perform i s

theorem openWith_ofProgram (env : Environment) (disk : Disk) (options : Options) :
    openWith Engine.ofProgram () env disk options = openSession env disk options := by
  unfold openSession openWith
  rfl

theorem run_eq_launch (env : Environment) (disk : Disk) (arguments : List String) :
    run env disk arguments = launch Engine.ofProgram () env disk arguments := by
  unfold run launch
  cases Invocation.read arguments with
  | error refusal => rfl
  | ok i =>
    dsimp only
    cases loadOptions env disk i with
    | error r => rfl
    | ok options =>
      dsimp only
      rw [openWith_ofProgram]
      cases openSession env disk options <;> rfl

theorem openWith_ok {engineOf : String → LoaderConfig → Engine ε} {memory : ε} {env : Environment}
    {disk : Disk} {options : Options} {s : Session ε}
    (h : openWith engineOf memory env disk options = .ok s) :
    s.options = options ∧ s.disk = disk ∧ ∃ text, disk.readText options.systemJsConfig = .ok text := by
  unfold openWith LoaderConfig.load at h
  split at h
  · cases h
  · rename_i hload
    split at h
    · cases h
    · cases h
      split at hload
      · exact ⟨rfl, rfl, _, ‹_›⟩
      · cases hload

/-! ## Actions that leave a file alone -/

/-- The answer to a compilation and the save of it leave the file at `path` alone: the engine does not
touch it, and no file that is written has its place. -/
def SavesBeside (path root : String) (s : Session ε) :
    Except EngineFailure Bundle × ε × Disk → Prop
  | (.error _, _, disk) => disk.read path = s.disk.read path
  | (.ok bundle, _, disk) =>
    disk.read path = s.disk.read path ∧
      ∀ file ∈ bundle.saveWritten root s.options disk, disk.written file.toList ≠ disk.led path.toList

instance (path root : String) (s : Session ε) :
    ∀ answer, Decidable (SavesBeside path root s answer)
  | (.error _, _, _) => inferInstanceAs (Decidable (_ = _))
  | (.ok _, _, _) => inferInstanceAs (Decidable (_ ∧ _))

/-- An action leaves the file at `path` alone. -/
def LeavesFile (path : String) (s : Session ε) : Concurrency.Action → Prop
  | .trace expression => (s.trace expression).2.disk.read path = s.disk.read path
  | .commit c =>
    c.modules s = [] ∨ SavesBeside path c.root s
      (s.engine.compile (c.modules s) (compileOptions s.options) s.memory s.disk)
  | .report _ => True

instance (path : String) (s : Session ε) : ∀ action, Decidable (LeavesFile path s action)
  | .trace _ => inferInstanceAs (Decidable (_ = _))
  | .commit _ => inferInstanceAs (Decidable (_ ∨ _))
  | .report _ => inferInstanceAs (Decidable True)

/-- All of some actions leave the file at `path` alone, each where it is taken. -/
inductive Undisturbed (path : String) : Session ε → List Concurrency.Action → Prop where
  | nil (s : Session ε) : Undisturbed path s []
  | cons {s : Session ε} {action : Concurrency.Action} {rest : List Concurrency.Action}
      (here : LeavesFile path s action) (later : Undisturbed path (action.apply s) rest) :
      Undisturbed path s (action :: rest)

theorem undisturbed_cons_iff {path : String} {s : Session ε} {action : Concurrency.Action}
    {rest : List Concurrency.Action} :
    Undisturbed path s (action :: rest) ↔
      LeavesFile path s action ∧ Undisturbed path (action.apply s) rest :=
  ⟨fun | .cons here later => ⟨here, later⟩, fun h => .cons h.1 h.2⟩

instance decidableUndisturbed (path : String) :
    ∀ (s : Session ε) (actions : List Concurrency.Action), Decidable (Undisturbed path s actions)
  | s, [] => isTrue (.nil s)
  | s, action :: rest =>
    have := decidableUndisturbed path (action.apply s) rest
    decidable_of_iff _ undisturbed_cons_iff.symm

theorem readText_iff_read {d : Disk} {path text : String} :
    d.readText path = .ok text ↔ d.read path = .ok (.text text) := by
  unfold readText
  split <;> rename_i h <;> simp [h]

theorem readText_of_read {d d' : Disk} {path text : String} (h : d'.read path = d.read path)
    (ht : d.readText path = .ok text) : d'.readText path = .ok text := by
  rw [readText_iff_read] at ht ⊢
  exact h.trans ht

theorem compileAndSave_readText {s : Session ε} {c : Commit} {path text : String}
    (h : LeavesFile path s (.commit c)) (ht : s.disk.readText path = .ok text) :
    (s.compileAndSave c.root (c.modules s)).2.disk.readText path = .ok text := by
  unfold compileAndSave
  split
  · exact ht
  · rename_i hsome
    have hbeside := h.resolve_left fun hnil => hsome (by simp [hnil])
    split <;> rename_i hcompile <;> rw [hcompile] at hbeside
    · exact readText_of_read hbeside ht
    · rename_i bundle memory disk
      obtain ⟨hread, hfiles⟩ := hbeside
      have hled : disk.led path.toList ∉
          Bundle.placesOf disk (bundle.saveWritten c.root s.options disk) := by
        intro hmem
        obtain ⟨file, hfile, heq⟩ := List.mem_map.1 hmem
        exact hfiles file hfile heq
      have hsaved := (bundle.save_keeps_written disk c.root s.options s.config).readText hled
        (readText_of_read hread ht)
      rcases hsave : bundle.save c.root s.options s.config disk with
        ⟨e | _ | target, config, disk'⟩ <;> rw [hsave] at hsaved <;> exact hsaved

theorem apply_readText {s : Session ε} {action : Concurrency.Action} {path text : String}
    (h : LeavesFile path s action) (ht : s.disk.readText path = .ok text) :
    (action.apply s).disk.readText path = .ok text := by
  cases action with
  | trace expression => exact readText_of_read h ht
  | commit c => exact compileAndSave_readText h ht
  | report event => exact ht

theorem undisturbed_readText {s : Session ε} {actions : List Concurrency.Action}
    {path text : String} (h : Undisturbed path s actions) (ht : s.disk.readText path = .ok text) :
    (follow s actions).disk.readText path = .ok text := by
  induction h with
  | nil => exact ht
  | cons here _ ih => exact ih (apply_readText here ht)

/-! ## The end of a command -/

theorem apply_options (s : Session ε) (action : Concurrency.Action) :
    (action.apply s).options = s.options := by
  cases action with
  | trace expression => exact (trace_frame s expression).1
  | commit c => exact (commits_compileAndSave s c.root (c.modules s)).options
  | report event => rfl

theorem follow_options (s : Session ε) (actions : List Concurrency.Action) :
    (follow s actions).options = s.options := by
  induction actions generalizing s with
  | nil => rfl
  | cons action rest ih => exact (ih (action.apply s)).trans (apply_options s action)

/-- Saving replaces the file if it succeeds. -/
theorem save_readText {s : Session ε} {text : String}
    (ht : s.disk.readText s.options.systemJsConfig = .ok text) :
    (save s).2.disk.readText s.options.systemJsConfig =
      .ok (if (save s).1.toBool then s.render else text) := by
  unfold save saveConfig
  rcases h : s.disk.write s.options.systemJsConfig s.render with ⟨e | _, disk⟩ <;> simp only [h]
  · exact (write_error_keeps h).readText List.not_mem_nil ht
  · exact readText_of_write h

/-- What a command leaves on the disk: its own files, and those of the save if there is one. -/
theorem perform_disk (i : Invocation) (s : Session ε) :
    (perform i s).disk =
      if (i.command.run s).1.toBool ∧ i.saves then (save (i.command.run s).2).2.disk
      else (i.command.run s).2.disk := by
  unfold perform
  rcases i.command.run s with ⟨r | printed, s'⟩
  · simp [Except.toBool]
  · cases i.saves with
    | false => simp
    | true =>
      rcases hsave : save s' with ⟨r | more, s''⟩ <;> simp [Except.toBool, hsave]

/-- The exit code says whether the command and the save succeeded. -/
theorem perform_code (i : Invocation) (s : Session ε) :
    (perform i s).code = 0 ↔ (i.command.run s).1.toBool = true ∧
      (i.saves = true → (save (i.command.run s).2).1.toBool = true) := by
  unfold perform
  rcases i.command.run s with ⟨r | printed, s'⟩
  · simp [Except.toBool]
  · cases i.saves with
    | false => simp [Except.toBool]
    | true =>
      rcases hsave : save s' with ⟨r | more, s''⟩ <;> simp [Except.toBool, hsave]

/-- The configuration file after a command that left it alone. -/
theorem perform_readText {i : Invocation} {s : Session ε} {text : String}
    (ht : (i.command.run s).2.disk.readText (i.command.run s).2.options.systemJsConfig = .ok text) :
    (perform i s).disk.readText (i.command.run s).2.options.systemJsConfig =
      .ok (if (perform i s).code = 0 ∧ i.saves = true then (i.command.run s).2.render else text) := by
  have hsave := save_readText ht
  rw [perform_disk]
  simp only [perform_code]
  cases (i.command.run s).1.toBool <;> cases i.saves <;> simp_all

/-! ## Whole runs -/

/-- What a run that started the session `s` with some options leaves in their configuration file. -/
structure SavesAfterSuccess (i : Invocation) (options : Options) (s : Session ε) (disk : Disk)
    (out : Output) : Prop where
  /-- The file is as it was unless the command succeeded and the save is wanted, and also if the save
  fails. -/
  kept : ¬((i.command.run s).1.toBool = true ∧ (i.saveConfig = true ∨ i.command = .all)) ∨
      out.code ≠ 0 → out.disk.read options.systemJsConfig = disk.read options.systemJsConfig
  saved : i.saveConfig = true ∨ i.command = .all → out.code = 0 →
    out.disk.readText options.systemJsConfig =
      .ok ((i.command.run s).2.config.render options.tab)
  /-- The configuration that is saved has all registrations of the run, as they were reported. -/
  registered : (i.command.run s).2.config =
    registerAll s.config (registrations (effectsAlong s (commandActions s i.command)))
  faithful : ∀ effect ∈ effectsAlong s (commandActions s i.command), effect.Faithful

theorem saves_iff (i : Invocation) :
    i.saves = true ↔ i.saveConfig = true ∨ i.command = .all := by
  rw [Invocation.saves, Bool.or_eq_true, Command.savesByItself_iff]

theorem perform_saves {i : Invocation} {s : Session ε} {text : String}
    (ht : s.disk.readText s.options.systemJsConfig = .ok text)
    (h : Undisturbed s.options.systemJsConfig s (commandActions s i.command)) :
    SavesAfterSuccess i s.options s s.disk (perform i s) := by
  have hrun := follow_command s i.command
  have hoptions : (i.command.run s).2.options = s.options := hrun ▸ follow_options s _
  have hfile : (perform i s).disk.readText s.options.systemJsConfig =
      .ok (if (perform i s).code = 0 ∧ i.saves = true then (i.command.run s).2.render else text) := by
    have hleft := undisturbed_readText h ht
    rw [hrun, ← hoptions] at hleft
    rw [← hoptions]
    exact perform_readText hleft
  obtain ⟨hfaithful, hconfig⟩ := follow_config s (commandActions s i.command)
  refine ⟨fun hnot => ?_, fun hwanted hcode => ?_, hrun ▸ hconfig, hfaithful⟩
  · have hunsaved : ¬((perform i s).code = 0 ∧ i.saves = true) := by
      rintro ⟨hcode, hsaves⟩
      have hok := ((perform_code i s).1 hcode).1
      exact hnot.elim (fun hnot => hnot ⟨hok, (saves_iff i).1 hsaves⟩) fun hnot => hnot hcode
    rw [if_neg hunsaved] at hfile
    rw [readText_iff_read.1 hfile, readText_iff_read.1 ht]
  · rw [if_pos ⟨hcode, (saves_iff i).2 hwanted⟩, Session.render, hoptions] at hfile
    exact hfile

/-- A run of the program is one of these runs, whatever the engine does. It leaves every file alone
if it gets no session, and saves the configuration only after success if it does. -/
theorem launch_saves (engineOf : String → LoaderConfig → Engine ε) (memory : ε) (env : Environment)
    (disk : Disk) {arguments : List String} {i : Invocation}
    (hread : Invocation.read arguments = .ok i) :
    run env disk arguments = launch Engine.ofProgram () env disk arguments ∧
      (∀ r, loadOptions env disk i = .error r →
        (launch engineOf memory env disk arguments).disk = disk) ∧
      ∀ options, loadOptions env disk i = .ok options →
        (∀ e, openWith engineOf memory env disk options = .error e →
          (launch engineOf memory env disk arguments).disk = disk) ∧
        ∀ s, openWith engineOf memory env disk options = .ok s →
          Undisturbed options.systemJsConfig s (commandActions s i.command) →
            SavesAfterSuccess i options s disk (launch engineOf memory env disk arguments) := by
  refine ⟨run_eq_launch env disk arguments, fun r hr => ?_, fun options hoptions =>
    ⟨fun e he => ?_, fun s hs hundisturbed => ?_⟩⟩
  · simp only [launch, hread, hr]
  · simp only [launch, hread, hoptions, he]
  · obtain ⟨rfl, rfl, text, ht⟩ := openWith_ok hs
    simp only [launch, hread, hoptions, hs]
    exact perform_saves ht hundisturbed

/-! ## A run that stops halfway -/

def halfwayConfig : LoaderConfig :=
  ⟨[("map", .object [("c", .string "npm:c@1")]),
    ("paths", .object [("npm:*", .string "jspm_packages/*")])]⟩

theorem parse_halfwayConfig : LoaderConfig.parse (halfwayConfig.render "  ") = .ok halfwayConfig := by
  have hkeys : halfwayConfig.DistinctKeys := by
    simp [LoaderConfig.DistinctKeys, LoaderConfig.toValue, halfwayConfig, Entries.keys,
      Json.Value.distinctKeys_object_iff, Json.Value.distinctKeys_string]
  have hints : LoaderConfig.HasReadIntegers halfwayConfig.toValue := by
    simp [LoaderConfig.toValue, halfwayConfig, LoaderConfig.hasReadIntegers_object_iff,
      hasReadIntegers_string]
  have hnames : halfwayConfig.HasNameKeys := by
    unfold LoaderConfig.HasNameKeys
    decide +kernel
  exact LoaderConfig.parse_render (by decide) hkeys hints hnames

/-- A project that declares the package `c`, which is installed. -/
def halfwayDisk : Disk where
  nodes := [(["config".toList], .directory),
    (["config".toList, "system.js".toList], .file (.text (halfwayConfig.render "  ")) false),
    (["package.json".toList],
      .file (.text "\x7b\"jspm\": \x7b\"dependencies\": \x7b\"c\": \"1\"\x7d\x7d\x7d") false),
    (["jspm_packages".toList], .directory),
    (["jspm_packages".toList, "c@1.js".toList], .file (.text "") false),
    (["bin".toList], .directory),
    (["bin".toList, "engine".toList], .file (.text "#!/bin/sh\n") true)]

/-- Below this source root no component can be looked for. -/
def halfwayArguments : List String := ["--engine", "bin/engine", "--source", "[", "all"]

/-- What the arguments ask for. -/
def halfwayInvocation : Invocation where
  config := none
  overrides := { basePath := some "[", engine := some "bin/engine" }
  saveConfig := false
  command := .all

def halfwayOptions : Options := { basePath := "[", engine := "bin/engine" }

def halfwayEngine : Engine (List Engine.Call) :=
  Engine.Table.naming { packages := [("c", ["npm:c@1"])] }

def halfwaySession : Session (List Engine.Call) :=
  .start halfwayOptions halfwayEngine [] halfwayConfig halfwayDisk

theorem load_halfway :
    LoaderConfig.load halfwayDisk halfwayOptions.systemJsConfig = .ok halfwayConfig := by
  have htext : halfwayDisk.readText halfwayOptions.systemJsConfig =
      .ok (halfwayConfig.render "  ") := rfl
  rw [LoaderConfig.load, htext]
  exact parse_halfwayConfig

theorem openWith_halfway :
    openWith (fun _ _ => halfwayEngine) [] [] halfwayDisk halfwayOptions = .ok halfwaySession := by
  have hfind : Program.find? halfwayDisk (searchPath []) halfwayOptions.engine =
      some "/bin/engine" := by decide +kernel
  rw [openWith, load_halfway]
  simp only [hfind]
  rfl

theorem read_halfway : Invocation.read halfwayArguments = .ok halfwayInvocation := rfl

theorem loadOptions_halfway :
    loadOptions [] halfwayDisk halfwayInvocation = .ok halfwayOptions := rfl

theorem launch_halfway :
    launch (fun _ _ => halfwayEngine) [] [] halfwayDisk halfwayArguments =
      perform halfwayInvocation halfwaySession := by
  simp only [launch, read_halfway, loadOptions_halfway, openWith_halfway]

theorem undisturbed_halfway : Undisturbed halfwayOptions.systemJsConfig halfwaySession
    (commandActions halfwaySession halfwayInvocation.command) := by
  decide +kernel

/-- The package is written and on the ledger when the search for components fails, and the
configuration file is as before. -/
theorem launch_saves_halfway :
    Undisturbed halfwayOptions.systemJsConfig halfwaySession
        (commandActions halfwaySession halfwayInvocation.command) ∧
      registrations (effectsAlong halfwaySession
        (commandActions halfwaySession halfwayInvocation.command)) = [("bundles/c", ["npm:c@1"])] ∧
      (halfwayInvocation.command.run halfwaySession).1.toBool = false ∧
      ∃ out, launch (fun _ _ => halfwayEngine) [] [] halfwayDisk halfwayArguments = out ∧
        SavesAfterSuccess halfwayInvocation halfwayOptions halfwaySession halfwayDisk out ∧
        out.code = 1 ∧ out.disk.exists? "build/bundles/c.js" = true ∧
        out.disk.read halfwayOptions.systemJsConfig =
          halfwayDisk.read halfwayOptions.systemJsConfig := by
  have hfails : (halfwayInvocation.command.run halfwaySession).1.toBool = false := by
    decide +kernel
  have hsaves := ((launch_saves (fun _ _ => halfwayEngine) [] [] halfwayDisk read_halfway).2.2
    halfwayOptions loadOptions_halfway).2 halfwaySession openWith_halfway undisturbed_halfway
  rw [launch_halfway] at hsaves ⊢
  refine ⟨undisturbed_halfway, by decide +kernel, hfails, _, rfl, hsaves, by decide +kernel,
    by decide +kernel, hsaves.kept (.inl fun hok => ?_)⟩
  rw [hfails] at hok
  exact Bool.false_ne_true hok.1

end BundleLedger.CommandLine
