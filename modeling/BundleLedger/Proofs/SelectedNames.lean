import BundleLedger.Session.Pipeline
import BundleLedger.Proofs.Ledger

/-!
# The names that are selected

What a commit hands to the engine, seen as a set of names. Every filter keeps a name for reasons
that the name, the ledger and the files give, so a chain of filters is a conjunction
(`mem_names_component`, `mem_names_packages`).

Results:

* `mem_names_componentModules` and `mem_names_packageModules`: a name is selected when no bundle
  holds it and the filters of the unit let it through (`keptByComponent`, `keptByPackages`).
* `isBundled_of_mem_groupModules`: nothing that a group selects is in the ledger.
-/
namespace BundleLedger

namespace Graph

theorem mem_names {graph : Graph} {m : String} :
    m ∈ graph.names ↔ ∃ key r, (key, r) ∈ graph ∧ r.name = m := by
  simp only [names, List.mem_map]
  constructor
  · rintro ⟨⟨key, r⟩, h, rfl⟩
    exact ⟨key, r, h, rfl⟩
  · rintro ⟨key, r, h, rfl⟩
    exact ⟨(key, r), h, rfl⟩

theorem mem_of_mem_merge {first later : Graph} {e : String × Record} (h : e ∈ merge first later) :
    e ∈ first ∨ e ∈ later :=
  Entries.mem_of_mem_putAll h

theorem mem_names_of_mem_merge {first later : Graph} {m : String}
    (h : m ∈ (merge first later).names) : m ∈ first.names ∨ m ∈ later.names := by
  obtain ⟨key, r, hr, rfl⟩ := mem_names.1 h
  rcases mem_of_mem_merge hr with hr | hr
  · exact .inl (mem_names.2 ⟨key, r, hr, rfl⟩)
  · exact .inr (mem_names.2 ⟨key, r, hr, rfl⟩)

end Graph

namespace Selection

theorem mem_names_keepNames {keep : String → Bool} {graph : Graph} {m : String} :
    m ∈ (keepNames keep graph).names ↔ m ∈ graph.names ∧ keep m = true := by
  simp only [Graph.mem_names, keepNames, List.mem_filter]
  constructor
  · rintro ⟨key, r, ⟨hr, hk⟩, rfl⟩
    exact ⟨⟨key, r, hr, rfl⟩, hk⟩
  · rintro ⟨⟨key, r, hr, rfl⟩, hk⟩
    exact ⟨key, r, ⟨hr, hk⟩, rfl⟩

theorem mem_names_withoutStyles {c : LoaderConfig} {graph : Graph} {m : String} :
    m ∈ (withoutStyles c graph).names ↔
      m ∈ graph.names ∧ (c.buildsStyles = true ∨ isStyle m = false) := by
  unfold withoutStyles
  split
  · rename_i h
    simp [h]
  · rename_i h
    simp [mem_names_keepNames, h]

/-- Whether the filters of a component, but for the one that looks into the ledger, keep a name. -/
def keptByComponent (isComponent : List Char → Bool) (root : String) (c : LoaderConfig)
    (m : String) : Bool :=
  !ModuleName.isVendor m && Ownership.isOwn isComponent root m && (c.buildsStyles || !isStyle m)

def keptByPackages (c : LoaderConfig) (names : List String) (m : String) : Bool :=
  (packageLocations c names).any fun l => l.toList.isPrefixOf m.toList

theorem mem_names_component {isComponent : List Char → Bool} {root : String} {c : LoaderConfig}
    {graph : Graph} {m : String} :
    m ∈ (component isComponent root c graph).names ↔
      m ∈ graph.names ∧ c.isBundled m = false ∧ keptByComponent isComponent root c m = true := by
  simp only [component, mem_names_withoutStyles, ownedBy, localOnly, unbundled, mem_names_keepNames,
    keptByComponent, Bool.and_eq_true, Bool.or_eq_true, Bool.not_eq_true', and_assoc]

theorem mem_names_packages {c : LoaderConfig} {names : List String} {graph : Graph} {m : String} :
    m ∈ (unbundled c (packages c names graph)).names ↔
      m ∈ graph.names ∧ c.isBundled m = false ∧ keptByPackages c names m = true := by
  simp only [unbundled, packages, mem_names_keepNames, keptByPackages, Bool.not_eq_true']
  exact ⟨fun h => ⟨h.1.1, h.2, h.1.2⟩, fun h => ⟨⟨h.1, h.2.2⟩, h.2.1⟩⟩

end Selection

namespace Session

variable {ε : Type} {s : Session ε}

theorem mem_names_componentModules {root : String} {graph : Graph} {m : String} :
    m ∈ (s.componentModules root graph).names ↔
      m ∈ graph.names ∧ s.config.isBundled m = false ∧
        Selection.keptByComponent (s.disk.isComponent s.options.basePath) root s.config m = true :=
  Selection.mem_names_component

theorem mem_names_packageModules {names : List String} {graph : Graph} {m : String} :
    m ∈ (s.packageModules names graph).names ↔
      m ∈ graph.names ∧ s.config.isBundled m = false ∧
        Selection.keptByPackages s.config names m = true :=
  Selection.mem_names_packages

/-- The merge of some component graphs holds no more than a graph that it starts from and what the
components select. -/
theorem isBundled_of_mem_mergeAll {components : List (String × Graph)} {merged : Graph}
    (hm : ∀ m ∈ merged.names, s.config.isBundled m = false) :
    ∀ m ∈ (components.foldl (fun merged (root, graph) =>
      Graph.merge merged (s.componentModules root graph)) merged).names,
      s.config.isBundled m = false := by
  induction components generalizing merged with
  | nil => exact hm
  | cons e components ih =>
    apply ih
    intro m h
    rcases Graph.mem_names_of_mem_merge h with h | h
    · exact hm m h
    · exact (mem_names_componentModules.1 h).2.1

/-- Nothing that a group selects is in the ledger. -/
theorem isBundled_of_mem_groupModules {components : List (String × Graph)} {names : List String}
    {vendor : Option Graph} {m : String} (h : m ∈ (s.groupModules components names vendor).names) :
    s.config.isBundled m = false := by
  have hmerged := @isBundled_of_mem_mergeAll ε s components [] (by simp [Graph.names])
  cases vendor with
  | none => exact hmerged m h
  | some graph =>
    rcases Graph.mem_names_of_mem_merge h with h | h
    · exact hmerged m h
    · exact (mem_names_packageModules.1 h).2.1

end Session

end BundleLedger
