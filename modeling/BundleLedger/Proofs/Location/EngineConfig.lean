import BundleLedger.Proofs.Location.AliasChoice
import BundleLedger.Proofs.OrderedEntries

/-!
# The configuration of the engine

The engine is given the configuration without its ledger, with another base and with absolute targets.
Three keys are put at most, each with a value that does not depend on what was there, but for `paths`:
its aliases stay where they are, and their targets become file URLs. File URLs are not rewritten, so
that nothing is rewritten twice.

Results:

* `scheme_absoluteTarget`: every target becomes a file URL.
* `paths_forEngine`: the aliases of the engine are those of the configuration, with absolute targets.
* `engineView_forEngine`: what the engine is given of a configuration, and at which place.
* `forEngine_congr`: neither the ledger nor the old base can be seen in it.
* `forEngine_stable`: it stays as it is when it is made anew, but for the base.
-/
namespace BundleLedger.LoaderConfig

open Json

variable {c c' : LoaderConfig} {workingDir baseUrl : String}

/-! ## Absolute targets -/

theorem scheme_absoluteTarget (workingDir baseUrl target : List Char) :
    "file:".toList <+: absoluteTarget workingDir baseUrl target := by
  unfold absoluteTarget
  split
  · rename_i h
    exact List.isPrefixOf_iff_prefix.1 h
  · have hscheme : "file://".toList = "file:".toList ++ "//".toList := rfl
    simp only [hscheme, List.append_assoc, List.prefix_append]

theorem absoluteTarget_of_scheme {target : List Char} (h : "file:".toList <+: target)
    (workingDir baseUrl : List Char) : absoluteTarget workingDir baseUrl target = target := by
  rw [absoluteTarget, if_pos (List.isPrefixOf_iff_prefix.2 h)]

theorem absoluteAlias_absoluteAlias (workingDir baseUrl baseUrl' : String) (v : Value) :
    absoluteAlias workingDir baseUrl' (absoluteAlias workingDir baseUrl v) =
      absoluteAlias workingDir baseUrl v := by
  cases v with
  | string target =>
    have hscheme := scheme_absoluteTarget workingDir.toList baseUrl.toList target.toList
    simp only [absoluteAlias, String.toList_ofList, absoluteTarget_of_scheme hscheme]
  | null | bool _ | number _ | array _ | object _ => rfl

theorem absoluteAlias_of_string?_eq_none {v : Value} (h : v.string? = none)
    (workingDir baseUrl : String) : absoluteAlias workingDir baseUrl v = v := by
  cases v with
  | string target => cases h
  | null | bool _ | number _ | array _ | object _ => rfl

/-! ## What is put -/

/-- The configuration with an empty ledger and a new base. -/
def rebased (c : LoaderConfig) (baseUrl : String) : LoaderConfig :=
  c.clearBundles.set "baseURL" (.string baseUrl)

def absoluteAliases (workingDir baseUrl : String) (aliases : Members) : Members :=
  aliases.map fun (name, target) => (name, absoluteAlias workingDir baseUrl target)

theorem get?_rebased (c : LoaderConfig) (baseUrl key : String) :
    (c.rebased baseUrl).get? key = if key = "baseURL" then some (.string baseUrl)
      else if key = "bundles" then some (.object []) else c.get? key := by
  rw [rebased, clearBundles, get?_set, get?_set]
  simp only [eq_comm (a := key)]

theorem section?_paths_rebased (c : LoaderConfig) (baseUrl : String) :
    (c.rebased baseUrl).section? "paths" = c.section? "paths" := by
  rw [section?, get?_rebased]
  rfl

theorem forEngine_eq_set {aliases : Members} (h : c.section? "paths" = some aliases) :
    c.forEngine workingDir baseUrl =
      (c.rebased baseUrl).set "paths" (.object (absoluteAliases workingDir baseUrl aliases)) := by
  have hsection := section?_paths_rebased c baseUrl
  rw [h] at hsection
  unfold rebased at hsection ⊢
  simp only [forEngine, hsection]
  rfl

theorem forEngine_eq_rebased (h : c.section? "paths" = none) :
    c.forEngine workingDir baseUrl = c.rebased baseUrl := by
  have hsection := section?_paths_rebased c baseUrl
  rw [h] at hsection
  unfold rebased at hsection ⊢
  simp only [forEngine, hsection]

theorem get?_forEngine (c : LoaderConfig) {key : String} (h : key ≠ "paths") :
    (c.forEngine workingDir baseUrl).get? key = (c.rebased baseUrl).get? key := by
  cases hsection : c.section? "paths" with
  | none => rw [forEngine_eq_rebased hsection]
  | some aliases => rw [forEngine_eq_set hsection, get?_set, if_neg h.symm]

theorem section?_paths_forEngine (c : LoaderConfig) (workingDir baseUrl : String) :
    (c.forEngine workingDir baseUrl).section? "paths" =
      (c.section? "paths").map (absoluteAliases workingDir baseUrl) := by
  cases hsection : c.section? "paths" with
  | none => rw [forEngine_eq_rebased hsection, section?_paths_rebased, hsection]; rfl
  | some aliases => rw [forEngine_eq_set hsection, section?, get?_set, if_pos rfl]; rfl

theorem paths_forEngine (c : LoaderConfig) (workingDir baseUrl : String) :
    (c.forEngine workingDir baseUrl).paths = absoluteAliases workingDir baseUrl c.paths := by
  rw [paths, section?_paths_forEngine, paths]
  cases c.section? "paths" <;> rfl

/-! ## Once more -/

theorem absoluteAliases_absoluteAliases (workingDir baseUrl baseUrl' : String) (aliases : Members) :
    absoluteAliases workingDir baseUrl' (absoluteAliases workingDir baseUrl aliases) =
      absoluteAliases workingDir baseUrl aliases := by
  simp only [absoluteAliases, List.map_map, Function.comp_def, absoluteAlias_absoluteAlias]

theorem set_eq_self {key : String} {v : Value} (h : c.get? key = some v) : c.set key v = c := by
  rw [set, Entries.put_eq_self h]

/-- The configuration of the engine has no ledger any more, and no target to be made absolute. -/
theorem forEngine_forEngine (c : LoaderConfig) (workingDir baseUrl baseUrl' : String) :
    (c.forEngine workingDir baseUrl).forEngine workingDir baseUrl' =
      (c.forEngine workingDir baseUrl).set "baseURL" (.string baseUrl') := by
  have hledger : (c.forEngine workingDir baseUrl).get? "bundles" = some (.object []) := by
    rw [get?_forEngine c (by decide), get?_rebased]
    rfl
  have hrebased : (c.forEngine workingDir baseUrl).rebased baseUrl' =
      (c.forEngine workingDir baseUrl).set "baseURL" (.string baseUrl') := by
    rw [rebased, clearBundles, set_eq_self hledger]
  have hsection := section?_paths_forEngine c workingDir baseUrl
  cases hpaths : c.section? "paths" with
  | none =>
    rw [hpaths] at hsection
    rw [forEngine_eq_rebased hsection, hrebased]
  | some aliases =>
    rw [hpaths] at hsection
    rw [forEngine_eq_set hsection, absoluteAliases_absoluteAliases, hrebased]
    refine set_eq_self ?_
    rw [get?_set, if_neg (by decide)]
    obtain ⟨v, hv, hmembers⟩ := Option.bind_eq_some_iff.1 hsection
    rw [hv, Value.members?_eq_some_iff.1 hmembers]

/-- Two configurations with the same keys in the same order, and the same values but for the ledger
and the base. -/
structure AlikeForEngine (c c' : LoaderConfig) : Prop where
  keys : Entries.keys c.entries = Entries.keys c'.entries
  values : ∀ key, key ≠ "bundles" → key ≠ "baseURL" → c.get? key = c'.get? key

theorem rebased_congr (hkeys : (Entries.keys c.entries).Nodup) (h : AlikeForEngine c c')
    (baseUrl : String) : c.rebased baseUrl = c'.rebased baseUrl := by
  have hentries : (c.rebased baseUrl).entries = (c'.rebased baseUrl).entries := by
    refine Entries.ext_of_nodup ?_ ?_ fun key => ?_
    · exact Entries.keys_nodup_put _ _ (Entries.keys_nodup_put _ _ hkeys)
    · simp only [rebased, clearBundles, set, Entries.keys_put, h.keys]
    · show (c.rebased baseUrl).get? key = (c'.rebased baseUrl).get? key
      rw [get?_rebased, get?_rebased]
      split
      · rfl
      · rename_i hbase
        split
        · rfl
        · rename_i hledger
          exact h.values key hledger hbase
  exact congrArg LoaderConfig.mk hentries

theorem forEngine_congr (hkeys : (Entries.keys c.entries).Nodup) (h : AlikeForEngine c c')
    (workingDir baseUrl : String) : c.forEngine workingDir baseUrl = c'.forEngine workingDir baseUrl := by
  have hsection : c.section? "paths" = c'.section? "paths" := by
    rw [section?, section?, h.values "paths" (by decide) (by decide)]
  cases hpaths : c.section? "paths" with
  | none =>
    rw [forEngine_eq_rebased hpaths, forEngine_eq_rebased (hsection ▸ hpaths), rebased_congr hkeys h]
  | some aliases =>
    rw [forEngine_eq_set hpaths, forEngine_eq_set (hsection ▸ hpaths), rebased_congr hkeys h]

/-! ## What the engine sees -/

/-- `e` is what the engine is given of `c`. -/
structure EngineView (baseUrl : String) (c e : LoaderConfig) : Prop where
  ledger : e.get? "bundles" = some (.object [])
  base : e.get? "baseURL" = some (.string baseUrl)
  /-- The keys keep their places; those that were not set come last. -/
  places : Entries.keys c.entries <+: Entries.keys e.entries
  /-- All other values are the same, also `paths` where it declares no aliases. -/
  others : ∀ (i : Nat) (key : String) (v : Value), c.entries[i]? = some (key, v) →
    key ≠ "bundles" → key ≠ "baseURL" → (key = "paths" → v.members? = none) →
      e.entries[i]? = some (key, v)
  /-- The aliases keep their places. -/
  names : Entries.keys e.paths = Entries.keys c.paths
  schemes : ∀ name target, (name, .string target) ∈ e.paths → "file:".toList <+: target.toList
  /-- What is no target is the same. -/
  rest : ∀ (i : Nat) (name : String) (v : Value), c.paths[i]? = some (name, v) → v.string? = none →
    e.paths[i]? = some (name, v)

theorem getElem?_set_of_ne {i : Nat} {key k : String} {w : Value}
    (h : c.entries[i]? = some (k, w)) (hk : k ≠ key) (v : Value) :
    (c.set key v).entries[i]? = some (k, w) :=
  Entries.getElem?_put_of_ne h hk v

theorem engineView_forEngine (hkeys : (Entries.keys c.entries).Nodup) (workingDir baseUrl : String) :
    EngineView baseUrl c (c.forEngine workingDir baseUrl) where
  ledger := by
    rw [get?_forEngine c (by decide), get?_rebased]
    rfl
  base := by
    rw [get?_forEngine c (by decide), get?_rebased]
    rfl
  places := by
    have hrebased : Entries.keys c.entries <+: Entries.keys (c.rebased baseUrl).entries :=
      (Entries.keys_prefix_put ..).trans (Entries.keys_prefix_put ..)
    cases hpaths : c.section? "paths" with
    | none => rwa [forEngine_eq_rebased hpaths]
    | some aliases =>
      rw [forEngine_eq_set hpaths]
      exact hrebased.trans (Entries.keys_prefix_put ..)
  others i key v hentry hledger hbase hvalue := by
    have hrebased : (c.rebased baseUrl).entries[i]? = some (key, v) :=
      getElem?_set_of_ne (getElem?_set_of_ne hentry hledger _) hbase _
    cases hpaths : c.section? "paths" with
    | none => rwa [forEngine_eq_rebased hpaths]
    | some aliases =>
      have hne : key ≠ "paths" := by
        rintro rfl
        have hget : c.get? "paths" = some v :=
          Entries.get?_of_mem hkeys (List.mem_of_getElem? hentry)
        rw [section?, hget, Option.bind_some, hvalue rfl] at hpaths
        cases hpaths
      rw [forEngine_eq_set hpaths]
      exact getElem?_set_of_ne hrebased hne _
  names := by
    rw [paths_forEngine, absoluteAliases, Entries.keys_map fun _ => absoluteAlias workingDir baseUrl]
  schemes name target hmem := by
    rw [paths_forEngine, absoluteAliases, List.mem_map] at hmem
    obtain ⟨⟨name', v⟩, -, heq⟩ := hmem
    cases v with
    | string target' =>
      cases heq
      have hscheme := scheme_absoluteTarget workingDir.toList baseUrl.toList target'.toList
      rwa [← @String.toList_ofList (absoluteTarget _ _ _)] at hscheme
    | null | bool _ | number _ | array _ | object _ => cases heq
  rest i name v halias hv := by
    rw [paths_forEngine, absoluteAliases, List.getElem?_map, halias]
    exact congrArg (fun w => some (name, w)) (absoluteAlias_of_string?_eq_none hv ..)

/-- The configuration of the engine is made anew from itself by setting the base, whatever it is; it
does not depend on the ledger or on the old base; and it has all the rest of the configuration in its
place, with file URLs for targets. -/
theorem forEngine_stable (hkeys : (Entries.keys c.entries).Nodup)
    (workingDir baseUrl baseUrl' : String) :
    (c.forEngine workingDir baseUrl).forEngine workingDir baseUrl' =
        (c.forEngine workingDir baseUrl).set "baseURL" (.string baseUrl') ∧
      (c.forEngine workingDir baseUrl).forEngine workingDir baseUrl =
        c.forEngine workingDir baseUrl ∧
      (∀ c', AlikeForEngine c c' →
        c.forEngine workingDir baseUrl = c'.forEngine workingDir baseUrl) ∧
      EngineView baseUrl c (c.forEngine workingDir baseUrl) := by
  have hview := engineView_forEngine hkeys workingDir baseUrl
  refine ⟨forEngine_forEngine .., ?_, fun c' h => forEngine_congr hkeys h .., hview⟩
  rw [forEngine_forEngine, set_eq_self hview.base]

def servedConfig (ledger : Members) (base : Value) : LoaderConfig :=
  ⟨[("bundles", .object ledger), ("paths", .object registryAliases), ("baseURL", base)]⟩

theorem forEngine_stable_served :
    (Entries.keys (servedConfig [("bundles/a", .strings ["a.js"])] .null).entries).Nodup ∧
      (servedConfig [("bundles/a", .strings ["a.js"])] .null).forEngine "/p" "./lib" =
        (servedConfig [] (.string "/")).forEngine "/p" "./lib" ∧
      EngineView "./lib" (servedConfig [("bundles/a", .strings ["a.js"])] .null)
        ((servedConfig [("bundles/a", .strings ["a.js"])] .null).forEngine "/p" "./lib") ∧
      ((servedConfig [("bundles/a", .strings ["a.js"])] .null).forEngine "/p" "./lib").aliases =
        [("*", "file:///p/lib/src/*"), ("npm:*", "file:///srv/*/main.*"),
          ("npm:lib", "file:///p/lib/lib")] := by
  have hkeys : (Entries.keys
      (servedConfig [("bundles/a", .strings ["a.js"])] .null).entries).Nodup := by decide
  have halike : AlikeForEngine (servedConfig [("bundles/a", .strings ["a.js"])] .null)
      (servedConfig [] (.string "/")) := by
    refine ⟨rfl, fun key hledger hbase => ?_⟩
    simp only [servedConfig, get?, Entries.get?, hledger.symm, hbase.symm, if_false]
  obtain ⟨-, -, hblind, hview⟩ := forEngine_stable hkeys "/p" "./lib" "./lib"
  exact ⟨hkeys, hblind _ halike, hview, by decide +kernel⟩

end BundleLedger.LoaderConfig
