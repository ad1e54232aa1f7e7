import BundleLedger.Engine.Table
import BundleLedger.Proofs.Disk.Frame

/-!
# What a session relies on

The ledger records what the engine says that a bundle holds, so what can be said about the ledger
depends on what the engine says. Two contracts are used: a bundle lists nothing but names of the
graph that it was made from, or exactly those names. Two more say that the engine only answers, and
the session writes: a compilation changes no file, and a trace neither changes one nor depends on
what was asked before.

Results:

* `listsOnlyGiven_of_listsGiven`: the second contract is the stronger one.
* `Table.listsGiven_naming`, `Table.leavesFiles_naming` and `Table.tracesOnly_naming`: the engine that
  answers from a table, when it lists names of records, keeps all contracts.
-/
namespace BundleLedger.Engine

variable {ε : Type}

def ListsOnlyGiven (engine : Engine ε) : Prop :=
  ∀ graph options memory disk bundle,
    (engine.compile graph options memory disk).1 = .ok bundle → ∀ m ∈ bundle.modules, m ∈ graph.names

/-- A bundle lists exactly the names of the graph that it was made from. -/
def ListsGiven (engine : Engine ε) : Prop :=
  ∀ graph options memory disk bundle,
    (engine.compile graph options memory disk).1 = .ok bundle → ∀ m, m ∈ bundle.modules ↔ m ∈ graph.names

/-- A compilation changes no file. -/
def LeavesFiles (engine : Engine ε) : Prop :=
  ∀ graph options memory disk, Disk.Extends [] disk (engine.compile graph options memory disk).2.2

/-- A trace only answers: always the same for an expression, and it changes no file. -/
structure TracesOnly (engine : Engine ε) : Prop where
  answer : ∀ expression memory memory' disk disk',
    (engine.trace expression memory disk).1 = (engine.trace expression memory' disk').1
  files : ∀ expression memory disk,
    Disk.Extends [] disk (engine.trace expression memory disk).2.2

theorem listsOnlyGiven_of_listsGiven {engine : Engine ε} (h : engine.ListsGiven) :
    engine.ListsOnlyGiven :=
  fun graph options memory disk bundle hb m => (h graph options memory disk bundle hb m).1

/-- The engine of a table, with bundles that list the names of records and not the keys. -/
def Table.naming (t : Table) : Engine (List Call) where
  trace := t.engine.trace
  compile graph options calls disk :=
    (match t.failure with
      | some message => .error (.compile message)
      | none => .ok { t.bundle graph options with modules := graph.names },
      calls ++ [⟨options, graph⟩], disk)
  turns := t.engine.turns

theorem Table.listsGiven_naming (t : Table) : t.naming.ListsGiven := by
  intro graph options memory disk bundle h m
  simp only [naming] at h
  split at h
  · cases h
  · cases h
    exact Iff.rfl

theorem Table.tracesOnly_naming (t : Table) : t.naming.TracesOnly :=
  ⟨fun _ _ _ _ _ => rfl, fun _ _ disk => Disk.Extends.refl [] disk⟩

theorem Table.leavesFiles_naming (t : Table) : t.naming.LeavesFiles :=
  fun _ _ _ disk => Disk.Extends.refl [] disk

end BundleLedger.Engine
