import BundleLedger.Engine.Command
import BundleLedger.Proofs.EngineContract
import BundleLedger.Session.Operations

/-!
# No key stands twice in what is read

An object that is read as entries has each key once, with the last value that was given for it. So a
graph has one record for each key, and a manifest declares each package once.

Results:

* `Table.tracesKeyed_engine` and `tracesKeyed_ofProgram`: the graphs of every engine there is have
  each key once.
* `declaredPackages_nodup`: no package is declared twice.
-/
namespace BundleLedger

open Json

namespace Json.Decoder

theorem keys_nodup_entries {α : Type} {d : Decoder α} {limit : Nat} {tree : Tree} {es : Entries α}
    (h : entries d limit tree = some es) : (Entries.keys es).Nodup := by
  unfold entries at h
  split at h
  · obtain ⟨pairs, -, rfl⟩ := Option.map_eq_some_iff.1 h
    exact Entries.keys_nodup_putAll (by simp [Entries.keys])
  · cases h

theorem nullable_eq_some_some {α : Type} {d : Decoder α} {limit : Nat} {tree : Tree} {a : α}
    (h : nullable d limit tree = some (some a)) : d limit tree = some a := by
  unfold nullable at h
  split at h
  · cases h
  · obtain ⟨b, hb, heq⟩ := Option.map_eq_some_iff.1 h
    exact hb.trans heq

theorem optional_eq_some_some {α : Type} {d : Decoder (Option α)} {limit : Nat} {slot : Option Tree}
    {a : α} (h : optional none d limit slot = some (some a)) :
    ∃ tree, d limit tree = some (some a) := by
  cases slot with
  | none => cases h
  | some tree => exact ⟨tree, h⟩

end Json.Decoder

theorem Graph.keys_nodup_parse? {text : String} {graph : Graph} (h : Graph.parse? text = some graph) :
    (Entries.keys graph).Nodup := by
  obtain ⟨tree, -, hgraph⟩ := Option.bind_eq_some_iff.1 h
  exact Decoder.keys_nodup_entries hgraph

/-! ## Engines -/

namespace Engine

variable {ε : Type}

/-- The graph of every trace has each key once. -/
def TracesKeyed (engine : Engine ε) : Prop :=
  ∀ expression memory disk graph,
    (engine.trace expression memory disk).1 = .ok graph → (Entries.keys graph).Nodup

namespace Table

variable (t : Table)

theorem keys_nodup_walk (expression : String) (fuel : Nat) (queue : List String) {graph : Graph}
    (h : (Entries.keys graph).Nodup) : (Entries.keys (t.walk expression fuel queue graph)).Nodup := by
  induction fuel generalizing queue graph with
  | zero => simpa [walk] using h
  | succ fuel ih =>
    cases queue with
    | nil => simpa [walk] using h
    | cons module queue =>
      rw [walk]
      split
      · exact ih queue h
      · exact ih _ (Entries.keys_nodup_put _ _ h)

theorem keys_nodup_traceNames {expression : String} {names : List String} {graph found : Graph}
    (h : (Entries.keys graph).Nodup) (hf : t.traceNames expression names graph = .ok found) :
    (Entries.keys found).Nodup := by
  induction names generalizing graph with
  | nil =>
    cases hf
    exact h
  | cons name names ih =>
    rw [traceNames] at hf
    split at hf
    · cases hf
    · exact ih (t.keys_nodup_walk _ _ _ h) hf

theorem tracesKeyed_engine : t.engine.TracesKeyed :=
  fun _ _ _ _ h => t.keys_nodup_traceNames (by simp [Entries.keys]) h

end Table

theorem tracesKeyed_ofProgram (program : String) (config : LoaderConfig) :
    (ofProgram program config).TracesKeyed := by
  intro expression memory disk graph h
  simp only [ofProgram] at h
  split at h
  · cases h
  · unfold decoded at h
    split at h
    · rename_i heq
      cases h
      obtain ⟨text, -, hgraph⟩ := Option.bind_eq_some_iff.1 heq
      exact Graph.keys_nodup_parse? hgraph
    · cases h

end Engine

/-! ## Manifests -/

namespace Manifest

theorem keys_nodup_jspm {limit : Nat} {tree : Tree} {es : Entries String}
    (h : jspmDecoder limit tree = some (some es)) : (Entries.keys es).Nodup := by
  unfold jspmDecoder at h
  obtain ⟨⟨slots, rest⟩, -, h⟩ := Option.bind_eq_some_iff.1 h
  split at h
  · obtain ⟨_, h⟩ := Decoder.optional_eq_some_some h
    exact Decoder.keys_nodup_entries (Decoder.nullable_eq_some_some h)
  · cases h

theorem keys_nodup_parse? {text : String} {m : Manifest} {es : Entries String}
    (h : parse? text = some m) (hd : m.dependencies? = some es) : (Entries.keys es).Nodup := by
  obtain ⟨tree, -, h⟩ := Option.bind_eq_some_iff.1 h
  unfold decoder at h
  obtain ⟨⟨slots, rest⟩, -, h⟩ := Option.bind_eq_some_iff.1 h
  split at h
  · obtain ⟨name, -, h⟩ := Option.bind_eq_some_iff.1 h
    obtain ⟨jspm, hjspm, h⟩ := Option.bind_eq_some_iff.1 h
    cases h
    obtain ⟨_, rfl, rfl⟩ := Option.bind_eq_some_iff.1 hd
    obtain ⟨_, hjspm⟩ := Decoder.optional_eq_some_some hjspm
    exact keys_nodup_jspm (Decoder.nullable_eq_some_some hjspm)
  · cases h

end Manifest

theorem Session.declaredPackages_nodup {disk : Disk} {path : String} {names : List String}
    (h : declaredPackages disk path = .ok names) : names.Nodup := by
  unfold declaredPackages at h
  split at h
  · cases h
  · split at h
    · cases h
    · rename_i manifest hm
      unfold Manifest.dependencyNames at h
      split at h
      · rename_i dependencies hd
        cases h
        exact Manifest.keys_nodup_parse? hm hd
      · cases h

end BundleLedger
