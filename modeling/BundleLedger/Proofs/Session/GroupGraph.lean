import BundleLedger.Engine.Table
import BundleLedger.Proofs.ComponentSelection
import BundleLedger.Proofs.OrderedEntries
import BundleLedger.Proofs.Session.Commits
import Mathlib.Data.List.Induction

/-!
# The graph of a group

A group merges what its components select with what its packages select. What it asks the engine to
compile is described here without a merge: a list of what each of them has to offer, components in
their order and the packages last, and a graph that gathers it (`Gathers`). Three rules say which
keys the graph has, where they stand and which record is under a key. A key is there when anything
offers it; it stands where it was offered first; its record is one that was offered last.

What the engine is asked is read off a session whose engine keeps a record of it
(`Engine.recording`). The record changes nothing else.

Results:

* `gathers_mergeAll`: merging graphs one after the other gathers them.
* `group_recorded`: a recorded group goes as the group does, and this is what is recorded.
* `group_compiles`: a group compiles the graph that gathers what it has to offer, once, or nothing if
  nothing is offered.
-/
namespace BundleLedger

/-! ## Gathering -/

namespace Graph

def mergeAll (offers : List Graph) : Graph := offers.foldl merge []

/-- A graph of what is offered in a row. -/
structure Gathers (offers : List Graph) (graph : Graph) : Prop where
  /-- The keys are those that are offered, each where it comes first. -/
  keys : Entries.keys graph = (offers.flatMap Entries.keys).eraseDups
  /-- A record was offered, and nothing later has its key. -/
  record : ∀ e ∈ graph, ∃ before offer after, offers = before ++ offer :: after ∧ e ∈ offer ∧
    ∀ later ∈ after, e.1 ∉ Entries.keys later

theorem mergeAll_eq (offers : List Graph) : mergeAll offers = Entries.ofPairs offers.flatten := by
  suffices h : ∀ graph, offers.foldl merge graph = Entries.putAll graph offers.flatten from h []
  induction offers with
  | nil => exact fun _ => rfl
  | cons offer offers ih =>
    intro graph
    rw [List.foldl_cons, ih, List.flatten_cons, Entries.putAll_append]
    rfl

theorem keys_mergeAll (offers : List Graph) :
    Entries.keys (mergeAll offers) = (offers.flatMap Entries.keys).eraseDups := by
  have hnil : (Entries.keys ([] : Graph)).Nodup := List.nodup_nil
  rw [mergeAll_eq, Entries.ofPairs, Entries.keys_putAll hnil, List.flatMap_def]
  exact congrArg List.eraseDups List.map_flatten

/-- What is merged later counts. -/
theorem mem_merge {first later : Graph} (h : (Entries.keys first).Nodup) {e : String × Record}
    (hmem : e ∈ merge first later) : e ∈ later ∨ e ∈ first ∧ e.1 ∉ Entries.keys later := by
  induction later generalizing first with
  | nil => exact .inr ⟨hmem, List.not_mem_nil⟩
  | cons x later ih =>
    rcases ih (Entries.keys_nodup_put x.1 x.2 h) hmem with hlater | ⟨hput, hnot⟩
    · exact .inl (List.mem_cons_of_mem _ hlater)
    · rcases Entries.mem_put h hput with rfl | ⟨hfirst, hne⟩
      · exact .inl List.mem_cons_self
      · exact .inr ⟨hfirst, by simpa [Entries.keys, hne] using hnot⟩

theorem gathers_mergeAll (offers : List Graph) : Gathers offers (mergeAll offers) := by
  refine ⟨keys_mergeAll offers, ?_⟩
  induction offers using List.reverseRecOn with
  | nil => simp [mergeAll]
  | append_singleton offers offer ih =>
    intro e he
    have hsnoc : mergeAll (offers ++ [offer]) = merge (mergeAll offers) offer := by
      simp [mergeAll]
    have hnodup : (Entries.keys (mergeAll offers)).Nodup := by
      rw [keys_mergeAll]
      exact Text.nodup_eraseDups _
    rw [hsnoc] at he
    rcases mem_merge hnodup he with hlast | ⟨hearlier, hnot⟩
    · exact ⟨offers, offer, [], rfl, hlast, by simp⟩
    · obtain ⟨before, source, after, rfl, hsource, hafter⟩ := ih e hearlier
      refine ⟨before, source, after ++ [offer], by simp, hsource, fun later hlater => ?_⟩
      rcases List.mem_append.1 hlater with h | h
      · exact hafter later h
      · rwa [List.mem_singleton.1 h]

theorem Gathers.nodup {offers : List Graph} {graph : Graph} (h : Gathers offers graph) :
    (Entries.keys graph).Nodup := by
  rw [h.keys]
  exact Text.nodup_eraseDups _

theorem Gathers.mem_keys {offers : List Graph} {graph : Graph} (h : Gathers offers graph)
    {key : String} : key ∈ Entries.keys graph ↔ ∃ offer ∈ offers, key ∈ Entries.keys offer := by
  rw [h.keys, List.mem_eraseDups, List.mem_flatMap]

end Graph

/-! ## A record of compilations -/

namespace Engine

variable {ε : Type}

def recording (engine : Engine ε) : Engine (ε × List Call) where
  trace expression memory disk :=
    let (graph, rest, disk) := engine.trace expression memory.1 disk
    (graph, (rest, memory.2), disk)
  compile graph options memory disk :=
    let (bundle, rest, disk) := engine.compile graph options memory.1 disk
    (bundle, (rest, memory.2 ++ [⟨options, graph⟩]), disk)
  turns := engine.turns

end Engine

namespace Session

open BundleLedger.Graph (Gathers mergeAll gathers_mergeAll)

variable {ε : Type} (s : Session ε)

/-- The session with an engine that keeps a record; `calls` are in it already. -/
def recording (calls : List Engine.Call) : Session (ε × List Engine.Call) where
  options := s.options
  engine := s.engine.recording
  memory := (s.memory, calls)
  config := s.config
  disk := s.disk
  events := s.events

def recorded {α : Type} (calls : List Engine.Call) (out : Outcome ε α) :
    Outcome (ε × List Engine.Call) α :=
  (out.1, out.2.recording calls)

def groupTraces (components packages : List String) :
    Outcome ε (List (String × Graph) × Option Graph) :=
  let roots := components.map ComponentRoot.ofName
  let (traces, s) := s.traceAll (roots.map ComponentRoot.entry)
  match allTraced traces with
  | .error e => (.error e, s)
  | .ok graphs =>
    match s.traceVendor packages with
    | (.error e, s) => (.error e, s)
    | (.ok vendor, s) => (.ok (roots.zip graphs, vendor), s)

def groupCalls (components packages : List String) : List Engine.Call :=
  match s.groupTraces components packages with
  | (.error _, _) => []
  | (.ok (traces, vendor), s) =>
    if s.groupModules traces packages vendor = [] then []
    else [⟨compileOptions s.options, s.groupModules traces packages vendor⟩]

theorem group_eq_groupTraces (components packages : List String) (saveAs : String) :
    s.group components packages saveAs =
      match s.groupTraces components packages with
      | (.error e, s) => (.error e, s)
      | (.ok (traces, vendor), s) => commitGroup traces packages vendor saveAs s := by
  unfold group groupTraces
  dsimp only
  generalize s.traceAll _ = traced
  rcases allTraced traced.1 with _ | graphs
  · rfl
  · rcases traced.2.traceVendor packages with ⟨_ | _, _⟩ <;> rfl

theorem eq_map_of_allTraced {traces : List (Except Failure Graph)} {graphs : List Graph}
    (h : allTraced traces = .ok graphs) : traces = graphs.map .ok := by
  induction traces generalizing graphs with
  | nil =>
    cases h
    rfl
  | cons trace traces ih =>
    rw [allTraced, List.mapM_cons] at h
    rcases trace with _ | graph
    · cases h
    · rcases hrest : allTraced traces with _ | rest <;> rw [allTraced] at hrest <;>
        rw [hrest] at h <;> cases h
      rw [ih hrest]
      rfl

theorem isSome_traceVendor {s s' : Session ε} {packages : List String} {vendor : Option Graph}
    (h : s.traceVendor packages = (.ok vendor, s')) : vendor.isSome = !packages.isEmpty := by
  unfold traceVendor at h
  split at h
  · rename_i hempty
    cases h
    rw [hempty]
    rfl
  · rename_i hempty
    split at h <;> cases h
    simp [hempty]

theorem groupTraces_spec {s s' : Session ε} {components packages : List String}
    {traces : List (String × Graph)} {vendor : Option Graph}
    (h : s.groupTraces components packages = (.ok (traces, vendor), s')) :
    traces.map (·.1) = components.map ComponentRoot.ofName ∧
      vendor.isSome = !packages.isEmpty ∧ Aside s s' := by
  unfold groupTraces at h
  dsimp only at h
  have haside := s.aside_traceAll ((components.map ComponentRoot.ofName).map ComponentRoot.entry)
  have hlength := s.length_traceAll ((components.map ComponentRoot.ofName).map ComponentRoot.entry)
  generalize s.traceAll _ = traced at h haside hlength
  split at h
  · cases h
  · rename_i graphs hgraphs
    rw [eq_map_of_allTraced hgraphs, List.length_map, List.length_map] at hlength
    have hvendor := aside_traceVendor traced.2 packages
    rcases htraced : traced.2.traceVendor packages with ⟨_ | found, s''⟩ <;> rw [htraced] at h hvendor <;>
      cases h
    exact ⟨List.map_fst_zip (by rw [hlength]), isSome_traceVendor htraced, haside.trans hvendor⟩

theorem trace_recording (calls : List Engine.Call) (expression : String) :
    (s.recording calls).trace expression = recorded calls (s.trace expression) := by
  rcases h : s.engine.trace expression s.memory s.disk with ⟨_ | _, _, _⟩ <;>
    simp [trace, recording, Engine.recording, recorded, h]

theorem traceAll_recording (calls : List Engine.Call) (expressions : List String) :
    (s.recording calls).traceAll expressions =
      ((s.traceAll expressions).1, (s.traceAll expressions).2.recording calls) := by
  induction expressions generalizing s with
  | nil => rfl
  | cons expression expressions ih =>
    simp only [traceAll, trace_recording, recorded, ih]

theorem traceVendor_recording (calls : List Engine.Call) (packages : List String) :
    (s.recording calls).traceVendor packages = recorded calls (s.traceVendor packages) := by
  unfold traceVendor
  split
  · rfl
  · rw [trace_recording]
    rcases s.trace (Engine.expression packages) with ⟨_ | _, _⟩ <;> rfl

theorem groupTraces_recording (calls : List Engine.Call) (components packages : List String) :
    (s.recording calls).groupTraces components packages =
      recorded calls (s.groupTraces components packages) := by
  simp only [groupTraces, traceAll_recording]
  split
  · rfl
  · rw [traceVendor_recording]
    rcases (Session.traceVendor _ packages) with ⟨_ | _, _⟩ <;> rfl

theorem compileAndSave_recording (calls : List Engine.Call) (root : String) (graph : Graph) :
    (s.recording calls).compileAndSave root graph =
      recorded (if graph = [] then calls else calls ++ [⟨compileOptions s.options, graph⟩])
        (s.compileAndSave root graph) := by
  by_cases hg : graph = []
  · subst hg
    rfl
  · have hne : graph.isEmpty = false := by simpa using hg
    rcases h : s.engine.compile graph (compileOptions s.options) s.memory s.disk with
      ⟨_ | bundle, memory, disk⟩
    · simp [compileAndSave, recording, Engine.recording, recorded, h, hg]
    · rcases hsave : bundle.save root s.options s.config disk with ⟨_ | _ | _, _, _⟩ <;>
        simp [compileAndSave, recording, Engine.recording, recorded, h, hg, hsave, reportSaved, emit]

theorem group_recorded (components packages : List String) (saveAs : String) :
    (s.recording []).group components packages saveAs =
      recorded (s.groupCalls components packages) (s.group components packages saveAs) := by
  rw [group_eq_groupTraces, group_eq_groupTraces, groupTraces_recording, groupCalls]
  rcases s.groupTraces components packages with ⟨_ | ⟨traces, vendor⟩, s'⟩
  · rfl
  · exact s'.compileAndSave_recording [] saveAs _

/-! ## What is compiled -/

/-- Whether a name is bundled with some packages, as the session stands. -/
structure Sought (names : List String) (name : String) : Prop where
  /-- It starts with the location of one of them, or of one that they need. -/
  located : ∃ location ∈ Selection.packageLocations s.config names, location.toList <+: name.toList
  /-- The ledger does not list it. -/
  free : ¬ s.config.Holds name

theorem sought_iff {names : List String} {name : String} :
    s.Sought names name ↔
      s.config.isBundled name = false ∧ Selection.keptByPackages s.config names name = true := by
  rw [← Bool.not_eq_true, LoaderConfig.isBundled_iff_holds, Selection.keptByPackages,
    List.any_eq_true]
  simp only [List.isPrefixOf_iff_prefix]
  exact ⟨fun h => ⟨h.free, h.located⟩, fun h => ⟨h.2, h.1⟩⟩

instance (names : List String) (name : String) : Decidable (s.Sought names name) :=
  decidable_of_iff _ s.sought_iff.symm

theorem packageModules_eq_filter (names : List String) (graph : Graph) :
    s.packageModules names graph = graph.filter fun (_, r) => decide (s.Sought names r.name) := by
  rw [packageModules, Selection.packages, Selection.unbundled, Selection.keepNames_keepNames,
    Selection.keepNames]
  refine List.filter_congr fun entry _ => Bool.eq_iff_iff.2 ?_
  rw [decide_eq_true_iff, s.sought_iff, Bool.and_eq_true, Bool.not_eq_true']
  exact And.comm

/-- What the parts of a group have to offer: of each trace the records that belong to the component,
and of the trace of the packages those that are sought. -/
def offers (traces : List (String × Graph)) (names : List String) (vendor : Option Graph) :
    List Graph :=
  (traces.map fun (root, graph) => graph.filter fun (_, r) => decide (s.Belongs root r.name)) ++
    vendor.toList.map fun graph => graph.filter fun (_, r) => decide (s.Sought names r.name)

theorem groupModules_eq_mergeAll (traces : List (String × Graph)) (names : List String)
    (vendor : Option Graph) :
    s.groupModules traces names vendor = mergeAll (s.offers traces names vendor) := by
  have hcomponents : traces.foldl (fun merged (root, graph) =>
      Graph.merge merged (s.componentModules root graph)) [] = mergeAll (traces.map fun (root, graph) =>
        graph.filter fun (_, r) => decide (s.Belongs root r.name)) := by
    simp only [mergeAll, List.foldl_map, componentModules_eq_filter]
  unfold groupModules
  rw [hcomponents, offers]
  cases vendor with
  | none => simp
  | some graph => simp [mergeAll, packageModules_eq_filter]

theorem mem_keys_offers {traces : List (String × Graph)} {names : List String}
    {vendor : Option Graph} {key : String} :
    (∃ offer ∈ s.offers traces names vendor, key ∈ Entries.keys offer) ↔
      (∃ root graph r, (root, graph) ∈ traces ∧ (key, r) ∈ graph ∧ s.Belongs root r.name) ∨
        ∃ graph r, vendor = some graph ∧ (key, r) ∈ graph ∧ s.Sought names r.name := by
  simp only [offers, List.mem_append, List.mem_map, Option.mem_toList, Entries.mem_keys]
  constructor
  · rintro ⟨_, ⟨⟨root, graph⟩, htrace, rfl⟩ | ⟨graph, rfl, rfl⟩, r, hr⟩ <;>
      simp only [List.mem_filter, decide_eq_true_iff] at hr
    · exact .inl ⟨root, graph, r, htrace, hr⟩
    · exact .inr ⟨graph, r, rfl, hr⟩
  · rintro (⟨root, graph, r, htrace, hr⟩ | ⟨graph, r, rfl, hr⟩)
    · exact ⟨_, .inl ⟨(root, graph), htrace, rfl⟩, r, by simpa using hr⟩
    · exact ⟨_, .inr ⟨graph, rfl, rfl⟩, r, by simpa using hr⟩

/-- A group asks for nothing but to compile the graph that gathers what it has to offer, and not even
that if the graph is empty. The order of its components makes no difference to the keys. -/
theorem group_compiles (components packages : List String) (saveAs : String) :
    ∃ calls, (s.recording []).group components packages saveAs =
        recorded calls (s.group components packages saveAs) ∧
      match s.groupTraces components packages with
      | (.error _, _) => calls = []
      | (.ok (traces, vendor), s') =>
        traces.map (·.1) = components.map ComponentRoot.ofName ∧
        vendor.isSome = !packages.isEmpty ∧ Aside s s' ∧
        ∃ graph, calls = (if graph = [] then [] else [⟨compileOptions s.options, graph⟩]) ∧
          Gathers (s'.offers traces packages vendor) graph ∧ (Entries.keys graph).Nodup ∧
          (∀ key, key ∈ Entries.keys graph ↔
            (∃ root trace r, (root, trace) ∈ traces ∧ (key, r) ∈ trace ∧ s'.Belongs root r.name) ∨
              ∃ trace r, vendor = some trace ∧ (key, r) ∈ trace ∧ s'.Sought packages r.name) ∧
          ∀ permuted, permuted.Perm traces → ∀ key,
            key ∈ Entries.keys (s'.groupModules permuted packages vendor) ↔
              key ∈ Entries.keys graph := by
  refine ⟨s.groupCalls components packages, s.group_recorded components packages saveAs, ?_⟩
  have hkeys : ∀ (s' : Session ε) traces vendor key,
      key ∈ Entries.keys (s'.groupModules traces packages vendor) ↔
        (∃ root trace r, (root, trace) ∈ traces ∧ (key, r) ∈ trace ∧ s'.Belongs root r.name) ∨
          ∃ trace r, vendor = some trace ∧ (key, r) ∈ trace ∧ s'.Sought packages r.name := by
    intro s' traces vendor key
    rw [groupModules_eq_mergeAll, (gathers_mergeAll _).mem_keys, mem_keys_offers]
  unfold groupCalls
  split
  · rfl
  · rename_i traces vendor s' heq
    obtain ⟨hroots, hvendor, haside⟩ := groupTraces_spec heq
    have hgathers := gathers_mergeAll (s'.offers traces packages vendor)
    have hoptions : s'.options = s.options := by
      obtain ⟨_, _, rfl⟩ := haside
      rfl
    rw [← groupModules_eq_mergeAll] at hgathers
    refine ⟨hroots, hvendor, haside, s'.groupModules traces packages vendor, by simp only [hoptions],
      hgathers, hgathers.nodup, hkeys s' traces vendor, fun permuted hperm key => ?_⟩
    simp only [hkeys, hperm.mem_iff]

/-- Two components that import the same module, one of which also imports what the ledger lists. -/
def sharingSession : Session (List Engine.Call) :=
  { nestedSession with
    engine := Engine.Table.engine
      { imports := [("a/index.js", ["a/old.js", "shared.js"]), ("c/index.js", ["shared.js"])] } }

/-- Which expression the record under each key was traced for. -/
def origins (graph : Graph) : List (String × Option String) :=
  graph.map fun (key, r) => (key, (Entries.get? r.metadata "via").bind Json.Value.string?)

/-- The shared module stands where `a` has it, with the record that `c` has. -/
theorem group_compiles_sharing :
    ∃ traces vendor s' graph,
      sharingSession.groupTraces ["a", "c"] ["lodash"] = (.ok (traces, vendor), s') ∧
      origins graph = [("a/index.js", some "a/index.js"), ("shared.js", some "c/index.js"),
        ("c/index.js", some "c/index.js"), ("lodash", some "lodash")] ∧
      traces.reverse.Perm traces ∧ ∀ key,
        key ∈ Entries.keys (s'.groupModules traces.reverse ["lodash"] vendor) ↔
          key ∈ Entries.keys graph := by
  obtain ⟨calls, hrecorded, hcalls⟩ := group_compiles sharingSession ["a", "c"] ["lodash"] "all"
  have hasked : calls.map (fun call => origins call.graph) =
      [[("a/index.js", some "a/index.js"), ("shared.js", some "c/index.js"),
        ("c/index.js", some "c/index.js"), ("lodash", some "lodash")]] :=
    (congrArg (fun out => out.2.memory.2.map fun call => origins call.graph) hrecorded).symm.trans
      (by decide +kernel)
  have hok : (sharingSession.groupTraces ["a", "c"] ["lodash"]).1.toBool = true := by decide +kernel
  rcases heq : sharingSession.groupTraces ["a", "c"] ["lodash"] with ⟨_ | ⟨traces, vendor⟩, s'⟩
  · rw [heq] at hok
    cases hok
  · rw [heq] at hcalls
    obtain ⟨-, -, -, graph, rfl, -, -, -, hperm⟩ := hcalls
    by_cases hne : graph = []
    · rw [if_pos hne] at hasked
      cases hasked
    · rw [if_neg hne, List.map_singleton, List.singleton_inj] at hasked
      exact ⟨traces, vendor, s', graph, rfl, hasked, List.reverse_perm traces,
        hperm traces.reverse (List.reverse_perm traces)⟩

end Session

end BundleLedger
