import BundleLedger.Engine.Table
import BundleLedger.Proofs.SelectedNames

/-!
# What a component selects, record by record

The filters of a component are four functions on graphs. Here their chain is compared with one
condition on a name, `Belongs`, which is written down without them: what the ledger lists, where the
first marks of a name stand, and which directories of the disk are components. The chain keeps the
records that meet it, as they are and where they are.

A filter looks at one record at a time, so the order of a chain and a filter that comes twice make
no difference. A chain is a list of `Filter` here, and all that counts is which filters it names.

Results:

* `indexOf?_eq_some_iff`: a search finds the first place where a text stands.
* `isBundled_iff_holds`: what the ledger holds, entry by entry, whatever else stands in it.
* `componentModules_exact`: the selection of a component, and of every chain that names all four
  filters, are the records that belong to it.
-/
namespace BundleLedger

namespace Text

/-- `needle` stands at `i` in `s`, and at no place before. -/
def FirstAt (needle s : List Char) (i : Nat) : Prop :=
  needle <+: s.drop i ∧ ∀ j < i, ¬ needle <+: s.drop j

theorem FirstAt.unique {needle s : List Char} {i j : Nat} (hi : FirstAt needle s i)
    (hj : FirstAt needle s j) : i = j := by
  rcases Nat.lt_trichotomy i j with h | h | h
  · exact absurd hi.1 (hj.2 i h)
  · exact h
  · exact absurd hj.1 (hi.2 j h)

theorem firstAt_zero_iff {needle s : List Char} : FirstAt needle s 0 ↔ needle <+: s := by
  simp [FirstAt]

theorem firstAt_cons_succ_iff {needle s : List Char} {c : Char} {i : Nat} :
    FirstAt needle (c :: s) (i + 1) ↔ ¬ needle <+: c :: s ∧ FirstAt needle s i := by
  constructor
  · rintro ⟨hi, hbefore⟩
    exact ⟨hbefore 0 (Nat.succ_pos i), hi, fun j hj => hbefore (j + 1) (Nat.succ_lt_succ hj)⟩
  · rintro ⟨hc, hi, hbefore⟩
    refine ⟨hi, fun j hj => ?_⟩
    cases j with
    | zero => exact hc
    | succ j => exact hbefore j (Nat.lt_of_succ_lt_succ hj)

theorem indexOf?_eq_some_iff {needle s : List Char} {i : Nat} :
    indexOf? needle s = some i ↔ FirstAt needle s i := by
  induction s generalizing i with
  | nil =>
    cases needle with
    | nil =>
      constructor
      · rintro ⟨⟩
        exact firstAt_zero_iff.2 (List.nil_prefix)
      · exact fun h => congrArg some (FirstAt.unique (firstAt_zero_iff.2 List.nil_prefix) h)
    | cons d needle => simp [indexOf?, FirstAt]
  | cons c s ih =>
    by_cases hc : needle <+: c :: s
    · rw [indexOf?, if_pos (List.isPrefixOf_iff_prefix.2 hc)]
      have h0 : FirstAt needle (c :: s) 0 := firstAt_zero_iff.2 hc
      exact ⟨fun h => Option.some.inj h ▸ h0, fun h => congrArg some (h0.unique h)⟩
    · rw [indexOf?, if_neg (mt List.isPrefixOf_iff_prefix.1 hc)]
      cases i with
      | zero => simp [firstAt_zero_iff, hc]
      | succ i => simp [firstAt_cons_succ_iff, hc, ih]

end Text

namespace LoaderConfig

/-- Whether the ledger lists `module`: `bundles` is an object, one of its members is an array, and
the name stands among its items. Members and items of another kind list nothing. -/
def Holds (c : LoaderConfig) (module : String) : Prop :=
  ∃ members id items, c.get? "bundles" = some (.object members) ∧
    (id, .array items) ∈ members ∧ .string module ∈ items

theorem mem_listedNames_iff {v : Json.Value} {m : String} :
    m ∈ listedNames v ↔ ∃ items, v = .array items ∧ .string m ∈ items := by
  cases v <;> simp [listedNames, Json.Value.items?, List.mem_filterMap,
    Json.Value.string?_eq_some_iff]

theorem section?_eq_some_iff {c : LoaderConfig} {key : String} {members : Json.Members} :
    c.section? key = some members ↔ c.get? key = some (.object members) := by
  simp only [section?, Option.bind_eq_some_iff, Json.Value.members?_eq_some_iff, exists_eq_right]

theorem isBundled_iff_holds {c : LoaderConfig} {m : String} : c.isBundled m = true ↔ c.Holds m := by
  rw [isBundled_iff, Holds]
  cases hs : c.section? "bundles" with
  | none =>
    have hno : ∀ members, c.get? "bundles" ≠ some (.object members) := by
      intro members h
      rw [section?_eq_some_iff.2 h] at hs
      cases hs
    simp [bundles, hs, hno]
  | some members =>
    have hmembers := section?_eq_some_iff.1 hs
    constructor
    · rintro ⟨b, hb, hm⟩
      rw [bundles, hs, Option.getD_some, List.mem_map] at hb
      obtain ⟨⟨id, v⟩, hv, rfl⟩ := hb
      obtain ⟨items, rfl, hitem⟩ := mem_listedNames_iff.1 hm
      exact ⟨members, id, items, hmembers, hv, hitem⟩
    · rintro ⟨members', id, items, hm', hv, hitem⟩
      cases hmembers.symm.trans hm'
      refine ⟨(id, listedNames (.array items)), ?_, mem_listedNames_iff.2 ⟨items, rfl, hitem⟩⟩
      rw [bundles, hs, Option.getD_some, List.mem_map]
      exact ⟨(id, .array items), hv, rfl⟩

end LoaderConfig

namespace ModuleName

theorem isVendor_eq_false_iff {name : String} :
    isVendor name = false ↔
      ∀ before after, name.toList = before ++ schemeMark :: after → pluginMark ∈ before := by
  rw [isVendor, List.contains_eq_mem, decide_eq_false_iff_not]
  generalize name.toList = s
  constructor
  · rintro h before after rfl
    refine Decidable.byContradiction fun hmark => h ?_
    rw [resourceChars, List.takeWhile_append_of_pos (fun c hc => ?_)]
    · simp [schemeMark, pluginMark]
    · exact bne_iff_ne.2 fun heq => hmark (heq ▸ hc)
  · intro h hmem
    obtain ⟨before, after, hsplit⟩ := List.append_of_mem hmem
    have hs : resourceChars s ++ s.dropWhile (· != pluginMark) = s :=
      List.takeWhile_append_dropWhile
    rw [hsplit, List.append_assoc, List.cons_append] at hs
    have hbefore : pluginMark ∈ resourceChars s := hsplit ▸ List.mem_append_left _ (h _ _ hs.symm)
    have hmark := List.all_eq_true.1 (List.all_takeWhile (p := (· != pluginMark)) (l := s)) _ hbefore
    exact absurd rfl (bne_iff_ne.1 hmark)

end ModuleName

namespace Selection

open ModuleName Text

theorem isStyle_iff {name : String} :
    isStyle name = true ↔ ∃ mark plugin, FirstAt [pluginMark] name.toList mark ∧
      FirstAt stylePlugin.toList name.toList plugin ∧ mark < plugin := by
  simp only [← indexOf?_eq_some_iff, isStyle]
  split
  · rename_i mark plugin hmark hplugin
    simp [hmark, hplugin]
  · rename_i hnone
    simp only [Bool.false_eq_true, false_iff]
    rintro ⟨mark, plugin, hmark, hplugin, -⟩
    exact hnone mark plugin hmark hplugin

/-- What a name has to meet to be bundled with the component at `root`. -/
structure Belongs (isComponent : List Char → Bool) (root : String) (c : LoaderConfig)
    (name : String) : Prop where
  /-- The ledger does not list it. -/
  free : ¬ c.Holds name
  /-- A colon stands only behind a plugin mark. -/
  unschemed : ∀ before after, name.toList = before ++ schemeMark :: after → pluginMark ∈ before
  /-- No component below `root` is nearer. -/
  unnested : Ownership.isNested isComponent name.toList root.toList = false
  /-- No other component has it. -/
  domestic : Ownership.isForeign isComponent name.toList root.toList = false
  /-- Styles are bundled, or its first plugin mark does not stand before the style plugin. -/
  unstyled : (∃ v, c.get? "buildCSS" = some v ∧ LoaderConfig.isTruthy v = true) ∨
    ¬ ∃ mark plugin, FirstAt [pluginMark] name.toList mark ∧
      FirstAt stylePlugin.toList name.toList plugin ∧ mark < plugin

theorem buildsStyles_iff {c : LoaderConfig} :
    c.buildsStyles = true ↔ ∃ v, c.get? "buildCSS" = some v ∧ LoaderConfig.isTruthy v = true := by
  rw [LoaderConfig.buildsStyles]
  cases c.get? "buildCSS" <;> simp

theorem belongs_iff {isComponent : List Char → Bool} {root : String} {c : LoaderConfig}
    {name : String} :
    Belongs isComponent root c name ↔
      c.isBundled name = false ∧ keptByComponent isComponent root c name = true := by
  have hstyled : (c.buildsStyles || !isStyle name) = true ↔
      (∃ v, c.get? "buildCSS" = some v ∧ LoaderConfig.isTruthy v = true) ∨
        ¬ ∃ mark plugin, FirstAt [pluginMark] name.toList mark ∧
          FirstAt stylePlugin.toList name.toList plugin ∧ mark < plugin := by
    rw [Bool.or_eq_true, buildsStyles_iff, ← isStyle_iff, Bool.not_eq_true', Bool.not_eq_true]
  rw [← Bool.not_eq_true, LoaderConfig.isBundled_iff_holds, keptByComponent, Bool.and_eq_true,
    Bool.and_eq_true, Bool.not_eq_true', isVendor_eq_false_iff, Ownership.isOwn, Bool.and_eq_true,
    Bool.not_eq_true', Bool.not_eq_true', hstyled]
  constructor
  · rintro ⟨free, unschemed, unnested, domestic, unstyled⟩
    exact ⟨free, ⟨unschemed, unnested, domestic⟩, unstyled⟩
  · rintro ⟨free, ⟨unschemed, unnested, domestic⟩, unstyled⟩
    exact ⟨free, unschemed, unnested, domestic, unstyled⟩

instance (isComponent : List Char → Bool) (root : String) (c : LoaderConfig) (name : String) :
    Decidable (Belongs isComponent root c name) :=
  decidable_of_iff _ belongs_iff.symm

/-! ## Chains of filters -/

theorem keepNames_true (graph : Graph) : keepNames (fun _ => true) graph = graph :=
  List.filter_eq_self.2 fun _ _ => rfl

theorem keepNames_keepNames (p q : String → Bool) (graph : Graph) :
    keepNames q (keepNames p graph) = keepNames (fun name => p name && q name) graph := by
  simp only [keepNames, List.filter_filter, Bool.and_comm]

/-- The filters of a component. -/
inductive Filter where
  | unbundled
  | localOnly
  | ownedBy
  | withoutStyles
  deriving DecidableEq, Repr

namespace Filter

variable (isComponent : List Char → Bool) (root : String) (c : LoaderConfig)

/-- What a filter makes of a graph. -/
def apply (graph : Graph) : Filter → Graph
  | unbundled => Selection.unbundled c graph
  | localOnly => Selection.localOnly graph
  | ownedBy => Selection.ownedBy isComponent root graph
  | withoutStyles => Selection.withoutStyles c graph

/-- A graph put through one filter after the other. -/
def chain (filters : List Filter) (graph : Graph) : Graph :=
  filters.foldl (apply isComponent root c) graph

/-- Whether a filter lets a name through. -/
def passes (name : String) : Filter → Bool
  | unbundled => !c.isBundled name
  | localOnly => !isVendor name
  | ownedBy => Ownership.isOwn isComponent root name
  | withoutStyles => c.buildsStyles || !isStyle name

theorem apply_eq_keepNames (graph : Graph) (f : Filter) :
    f.apply isComponent root c graph = keepNames (fun name => f.passes isComponent root c name) graph := by
  cases f with
  | unbundled => rfl
  | localOnly => rfl
  | ownedBy => rfl
  | withoutStyles =>
    rw [apply, Selection.withoutStyles]
    split
    · rename_i h
      simp only [passes, h, Bool.true_or, keepNames_true]
    · rename_i h
      simp [keepNames, passes, h]

theorem chain_eq_keepNames (filters : List Filter) (graph : Graph) :
    chain isComponent root c filters graph =
      keepNames (fun name => filters.all (passes isComponent root c name)) graph := by
  induction filters generalizing graph with
  | nil => simp only [chain, List.foldl_nil, List.all_nil, keepNames_true]
  | cons f filters ih =>
    calc chain isComponent root c (f :: filters) graph
        = chain isComponent root c filters (f.apply isComponent root c graph) := rfl
      _ = keepNames (fun name => filters.all (passes isComponent root c name))
            (f.apply isComponent root c graph) := ih _
      _ = _ := by rw [apply_eq_keepNames, keepNames_keepNames]; simp only [List.all_cons]

theorem all_passes_iff {filters : List Filter} (hall : ∀ f, f ∈ filters) (name : String) :
    filters.all (passes isComponent root c name) = true ↔ Belongs isComponent root c name := by
  rw [List.all_eq_true, belongs_iff, keptByComponent]
  constructor
  · intro h
    have h1 := h _ (hall unbundled)
    have h2 := h _ (hall localOnly)
    have h3 := h _ (hall ownedBy)
    have h4 := h _ (hall withoutStyles)
    simp_all [passes]
  · rintro ⟨h1, h2⟩ f -
    simp only [Bool.and_eq_true] at h2
    cases f <;> simp_all [passes]

theorem chain_eq_filter {filters : List Filter} (hall : ∀ f, f ∈ filters) (graph : Graph) :
    chain isComponent root c filters graph =
      graph.filter fun (_, r) => decide (Belongs isComponent root c r.name) := by
  rw [chain_eq_keepNames, keepNames]
  refine List.filter_congr fun entry _ => ?_
  exact Bool.eq_iff_iff.2
    ((all_passes_iff isComponent root c hall entry.2.name).trans decide_eq_true_iff.symm)

end Filter

end Selection

namespace Session

variable {ε : Type}

/-- Whether a name is bundled with the component at `root`, as the session stands. -/
abbrev Belongs (s : Session ε) (root name : String) : Prop :=
  Selection.Belongs (s.disk.isComponent s.options.basePath) root s.config name

/-- A graph put through some of the filters of the component at `root`. -/
def filtered (s : Session ε) (root : String) (filters : List Selection.Filter) (graph : Graph) :
    Graph :=
  Selection.Filter.chain (s.disk.isComponent s.options.basePath) root s.config filters graph

theorem filtered_eq_filter (s : Session ε) (root : String) {filters : List Selection.Filter}
    (hall : ∀ f, f ∈ filters) (graph : Graph) :
    s.filtered root filters graph = graph.filter fun (_, r) => decide (s.Belongs root r.name) :=
  Selection.Filter.chain_eq_filter _ _ _ hall graph

theorem componentModules_eq_filter (s : Session ε) (root : String) (graph : Graph) :
    s.componentModules root graph =
      graph.filter fun (_, r) => decide (s.Belongs root r.name) := by
  have hchain : s.componentModules root graph =
      s.filtered root [.unbundled, .localOnly, .ownedBy, .withoutStyles] graph := rfl
  rw [hchain]
  exact s.filtered_eq_filter root (by rintro (_ | _ | _ | _) <;> simp) graph

/-- The selection of a component are the records that belong to it, unchanged and in their order;
so is what every chain leaves that names all four filters, in any order and any number of times. -/
theorem componentModules_exact (s : Session ε) (root : String) (graph : Graph) :
    s.componentModules root graph = graph.filter (fun (_, r) => decide (s.Belongs root r.name)) ∧
      ∀ filters : List Selection.Filter, (∀ f, f ∈ filters) →
        s.filtered root filters graph = s.componentModules root graph :=
  ⟨s.componentModules_eq_filter root graph, fun _ hall =>
    (s.filtered_eq_filter root hall graph).trans (s.componentModules_eq_filter root graph).symm⟩

/-- A component `a` with a component `a/b` inside of it, and a component `c` beside it. -/
def nestedDisk : Disk where
  nodes := [(["src".toList], .directory), (["src".toList, "a".toList], .directory),
    (["src".toList, "a".toList, "b".toList], .directory), (["src".toList, "c".toList], .directory),
    (["src".toList, "a".toList, "index.js".toList], .file (.text "") false),
    (["src".toList, "a".toList, "b".toList, "index.js".toList], .file (.text "") false),
    (["src".toList, "c".toList, "index.js".toList], .file (.text "") false)]

/-- A session whose ledger has an entry that is no list, and one with an item that is no name. Its
engine cannot trace `x`. -/
def nestedSession : Session (List Engine.Call) where
  options := { basePath := "src" }
  engine := Engine.Table.engine { broken := [("x", "unreadable")] }
  memory := []
  config := ⟨[("bundles", .object [("bundles/old", .array [.null, .string "a/old.js"]),
    ("bundles/odd", .string "a/index.js")])]⟩
  disk := nestedDisk

/-- A graph with a record for each filter to drop, and three that belong to `a`. -/
def nestedGraph : Graph :=
  [("1", ⟨"a/index.js", []⟩), ("2", ⟨"a/old.js", []⟩), ("3", ⟨"npm:lodash@4.17.4/index.js", []⟩),
    ("4", ⟨"a/b/part.js", []⟩), ("5", ⟨"c/part.js", [("deps", .array [])]⟩),
    ("6", ⟨"a/look.css!npm:plugin-css@0.1.20/css.js", []⟩),
    ("7", ⟨"a/page.html!npm:plugin-text@0.0.4/text.js", [("deps", .null)]⟩),
    ("8", ⟨"shared.js", []⟩)]

theorem componentModules_exact_nested :
    Entries.keys (nestedSession.componentModules "a" nestedGraph) = ["1", "7", "8"] ∧
      (∀ f, f ∈ [Selection.Filter.withoutStyles, .ownedBy, .withoutStyles, .localOnly, .unbundled]) ∧
      nestedSession.filtered "a" [.withoutStyles, .ownedBy, .withoutStyles, .localOnly, .unbundled]
        nestedGraph = nestedSession.componentModules "a" nestedGraph := by
  have hall : ∀ f, f ∈ [Selection.Filter.withoutStyles, .ownedBy, .withoutStyles, .localOnly,
      .unbundled] := by
    rintro (_ | _ | _ | _) <;> simp
  exact ⟨by decide +kernel, hall, (componentModules_exact nestedSession "a" nestedGraph).2 _ hall⟩

end Session

end BundleLedger
