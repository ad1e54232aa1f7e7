import BundleLedger.Proofs.Concurrency.Coverage
import BundleLedger.Proofs.EngineContract
import BundleLedger.Proofs.SelectedNames

/-!
# No module is bundled twice

Operations of all kinds race after their traces, and each of their steps may fail. Still no module
name stands in two entries of the ledger, and whoever holds the lock has only modules that the ledger
does not hold yet.

The invariant (`Fresh`) speaks about the holder of the lock alone: a commit selects its modules when
it takes the lock, the ledger changes only at the end of a save, and that gives the lock back. So
what was not in the ledger when it was selected is not in it when it is registered, whatever the
other tasks do in the meantime.

**Hypothesis (`Engine.ListsOnlyGiven`).** A compiled bundle lists only names of records of the graph
that it was made from.

Results:

* `fresh_step` and `fresh_reachable`: the invariant.
* `reachable_entriesDisjoint`: the statement for every reachable state.
-/
namespace BundleLedger.Concurrency

variable {ε : Type}

def Lock.modules : Lock → List String
  | .free => []
  | .compiling _ graph => graph.names
  | .saving _ bundle => bundle.modules

/-- The ledger's entries are disjoint, and the ledger holds nothing of what is being bundled. -/
structure Fresh (st : State ε) : Prop where
  disjoint : st.session.config.EntriesDisjoint
  unheld : ∀ m ∈ st.lock.modules, st.session.config.isBundled m = false

theorem isBundled_of_mem_modules {s : Session ε} {commit : Commit} {m : String}
    (h : m ∈ (commit.modules s).names) : s.config.isBundled m = false := by
  cases commit with
  | component root graph => exact (Session.mem_names_componentModules.1 h).2.1
  | packages names root graph => exact (Session.mem_names_packageModules.1 h).2.1
  | group components packages vendor root => exact Session.isBundled_of_mem_groupModules h

/-- A step that leaves the ledger alone and hands nothing new to the holder of the lock. -/
theorem Fresh.frame {st st' : State ε} (h : Fresh st)
    (hc : st'.session.config = st.session.config)
    (hl : ∀ m ∈ st'.lock.modules, m ∈ st.lock.modules) : Fresh st' := by
  refine ⟨?_, ?_⟩
  · rw [hc]
    exact h.disjoint
  · intro m hm
    rw [hc]
    exact h.unheld m (hl m hm)

theorem modules_compiled {s : Session ε} (hs : s.engine.ListsOnlyGiven) (root : String)
    (graph : Graph) : ∀ m ∈ (compiled s root graph).2.modules, m ∈ graph.names := by
  intro m hm
  unfold compiled at hm
  split at hm
  · simp [Lock.modules] at hm
  · rename_i bundle memory disk heq
    exact hs graph _ _ _ bundle (by rw [heq]) m hm

/-- A save of modules that are not in the ledger keeps its entries disjoint. -/
theorem entriesDisjoint_saved {s : Session ε} {root : String} {bundle : Bundle}
    (hd : s.config.EntriesDisjoint) (hm : ∀ m ∈ bundle.modules, s.config.isBundled m = false) :
    (saved s root bundle).config.EntriesDisjoint := by
  rcases saved_config_cases s root bundle with h | h <;> rw [h]
  · exact hd
  · exact LoaderConfig.entriesDisjoint_register hd hm

theorem fresh_step {st st' : State ε} (he : st.session.engine.ListsOnlyGiven) (h : Fresh st)
    (hs : Step st st') : Fresh st' := by
  cases hs with
  | outside s lock tasks memory disk events => exact h.frame rfl fun _ hm => hm
  | start s lock request rest _ => exact h.frame rfl fun _ hm => hm
  | trace s lock single rest => exact h.frame (trace_frame s _).2.2 fun _ hm => hm
  | slot s lock before after root packages saveAs rest =>
    exact h.frame (trace_frame s _).2.2 fun _ hm => hm
  | gather s lock traces packages saveAs rest =>
    exact h.frame (gathered_frame s _ _ _).2.2 fun _ hm => hm
  | acquire s commit rest => exact ⟨h.disjoint, fun m hm => isBundled_of_mem_modules hm⟩
  | skip s root tasks => exact h.frame rfl fun m hm => by simp [Lock.modules] at hm
  | compile s root graph tasks _ =>
    exact h.frame (compiled_frame s root graph).2.2 (modules_compiled he root graph)
  | save s root bundle tasks =>
    exact ⟨entriesDisjoint_saved h.disjoint h.unheld, fun m hm => by simp [Lock.modules] at hm⟩

theorem Reachable.engine {s₀ : Session ε} {st : State ε} (h : Reachable s₀ st) :
    st.session.engine = s₀.engine := by
  induction h with
  | start => rfl
  | call st request _ ih => exact ih
  | step st st' _ hs ih => rw [hs.engine, ih]

theorem fresh_reachable {s₀ : Session ε} (he : s₀.engine.ListsOnlyGiven)
    (h₀ : s₀.config.EntriesDisjoint) {st : State ε} (h : Reachable s₀ st) : Fresh st := by
  induction h with
  | start => exact ⟨h₀, fun m hm => by simp [Lock.modules] at hm⟩
  | call st request _ ih => exact ih.frame rfl fun _ hm => hm
  | step st st' hr hs ih => exact fresh_step (hr.engine ▸ he) ih hs

theorem entriesDisjoint_start {options : Options} {engine : Engine ε} {memory : ε}
    {config : LoaderConfig} {disk : Disk}
    (h : options.keepExistingBundles = true → config.EntriesDisjoint) :
    (Session.start options engine memory config disk).config.EntriesDisjoint := by
  cases hk : options.keepExistingBundles with
  | true =>
    rw [Session.config_start hk]
    exact h hk
  | false =>
    simp only [Session.start, hk, Bool.false_eq_true, if_false]
    exact LoaderConfig.entriesDisjoint_of_bundles_nil (LoaderConfig.bundles_clearBundles config)

/-- In every reachable state the entries of the ledger are disjoint, and a graph that is handed to
the engine has no record whose name the ledger holds. -/
theorem reachable_entriesDisjoint (options : Options) (engine : Engine ε) (memory : ε)
    (config : LoaderConfig) (disk : Disk) (he : engine.ListsOnlyGiven)
    (hc : options.keepExistingBundles = true → config.EntriesDisjoint) (st : State ε)
    (h : Reachable (Session.start options engine memory config disk) st) :
    st.session.config.EntriesDisjoint ∧
      ∀ root graph, st.lock = .compiling root graph →
        ∀ r ∈ Entries.values graph, st.session.config.isBundled r.name = false := by
  have hf : Fresh st := fresh_reachable he (entriesDisjoint_start hc) h
  refine ⟨hf.disjoint, ?_⟩
  intro root graph hl r hr
  apply hf.unheld
  rw [hl]
  simp only [Lock.modules, Graph.names, List.mem_map]
  obtain ⟨e, he, rfl⟩ := List.mem_map.1 hr
  exact ⟨e, he, rfl⟩

/-! ## Two components that share a module -/

/-- Both components import `shared.js`. -/
def pairTable : Engine.Table where
  imports := [("a/index.js", ["shared.js", "old.js"]), ("b/index.js", ["shared.js"])]

/-- A source root with two components. -/
def pairDisk : Disk where
  nodes := [(["src".toList], .directory), (["src".toList, "a".toList], .directory),
    (["src".toList, "b".toList], .directory),
    (["src".toList, "a".toList, "index.js".toList], .file (.text "") false),
    (["src".toList, "b".toList, "index.js".toList], .file (.text "") false)]

/-- A session that keeps a ledger with one entry. -/
def pairStart : Session (List Engine.Call) :=
  Session.start { basePath := "src", dest := "out", keepExistingBundles := true } pairTable.naming []
    ⟨[("bundles", .object [("bundles/old", .strings ["old.js"])])]⟩ pairDisk

/-- The session after the first component was bundled. -/
def pairNext : Session (List Engine.Call) := Request.perform pairStart (.component "a/index.js")

/-- The second component is compiled, without the module that it shares with the first. -/
def pairCompiling : State (List Engine.Call) :=
  ⟨pairNext, .compiling "b" [("b/index.js", pairTable.record "b/index.js" "b/index.js")], 0⟩

theorem reachable_pairCompiling : Reachable pairStart pairCompiling := by
  have h : Reachable pairStart ⟨pairNext, .free, 0⟩ := reachable_perform .start _
  have hb := h.compiling (.component "b/index.js") (.component "b/index.js") rfl rfl
  exact hb

theorem reachable_entriesDisjoint_pair :
    pairNext.config.bundles =
        [("bundles/old", ["old.js"]), ("bundles/a", ["a/index.js", "shared.js"])] ∧
      pairTable.naming.ListsOnlyGiven ∧ pairStart.config.EntriesDisjoint ∧
      Reachable pairStart pairCompiling ∧
      pairCompiling.session.config.EntriesDisjoint ∧
        ∀ root graph, pairCompiling.lock = .compiling root graph →
          ∀ r ∈ Entries.values graph, pairCompiling.session.config.isBundled r.name = false := by
  have he := Engine.listsOnlyGiven_of_listsGiven pairTable.listsGiven_naming
  have hc : pairStart.config.EntriesDisjoint := by
    unfold LoaderConfig.EntriesDisjoint
    decide +kernel
  exact ⟨by decide +kernel, he, hc, reachable_pairCompiling,
    reachable_entriesDisjoint _ _ _ _ _ he (fun _ => hc) pairCompiling reachable_pairCompiling⟩

end BundleLedger.Concurrency
