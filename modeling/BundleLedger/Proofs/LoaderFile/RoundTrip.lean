import BundleLedger.Proofs.Disk.ReadBack
import BundleLedger.Proofs.EngineContract
import BundleLedger.Proofs.LoaderFile.ConfigCall
import BundleLedger.Session.Operations

/-!
# A saved configuration loads as it was

The text of a configuration is one call, and the call sets exactly its members. What is left to see
is that the call is applied to an empty configuration, where nothing merges, and that the file on the
disk holds that text.

Results:

* `parse_render`: the text of a configuration is read as that configuration.
* `Session.Over.distinctKeys`: the keys of every configuration that a session can hold are distinct.
* `load_saveConfig`: what a session saves is loaded again with the same members in the same order, so
  the next session that keeps its bundles goes on with the same ledger.
-/
namespace BundleLedger

open Json

/-! ## Applying one call -/

namespace LoaderConfig

open Json.Value Script

theorem applyMember_of_new {c : LoaderConfig} {key : String} (hkey : key ∉ Entries.keys c.entries)
    {v : Value} (hv : v.DistinctKeys) : c.applyMember key v = ⟨c.entries ++ [(key, v)]⟩ := by
  have hset : ∀ w, c.set key w = ⟨c.entries ++ [(key, w)]⟩ := fun w => by
    rw [set, Entries.put_of_not_mem hkey]
  cases v with
  | object members =>
    have hsection : c.section? key = none := by
      rw [section?, get?, Entries.get?_eq_none_iff.2 hkey, Option.bind_none]
    have hputs : Entries.putAll [] members = members :=
      Entries.putAll_eq_append (distinctKeys_object_iff.1 hv).1
    simp only [applyMember, hsection, Option.getD_none, hputs, hset]
  | null | bool _ | number _ | string _ | array _ => exact hset _

theorem apply_of_new {c : LoaderConfig} {members : Members}
    (hkeys : (Entries.keys (c.entries ++ members)).Nodup) (hvalues : ∀ m ∈ members, m.2.DistinctKeys) :
    c.apply members = ⟨c.entries ++ members⟩ := by
  induction members generalizing c with
  | nil => simp [apply]
  | cons m members ih =>
    have hnew : m.1 ∉ Entries.keys c.entries := by
      rw [Entries.keys, List.map_append, List.nodup_append] at hkeys
      exact fun hm => hkeys.2.2 m.1 hm m.1 (by simp) rfl
    have hm := applyMember_of_new hnew (hvalues m List.mem_cons_self)
    show (c.applyMember m.1 m.2).apply members = _
    rw [hm, ih (by simpa using hkeys) fun m' hm' => hvalues m' (List.mem_cons_of_mem _ hm'),
      List.append_assoc, List.singleton_append]

theorem ofStatements_call {c : LoaderConfig} (hkeys : c.DistinctKeys) {e : Expr}
    (he : IsCallOf (IsObjectOf c.entries) e) : ofStatements [.expression e] = .ok c := by
  obtain ⟨start, start', start'', object, ⟨start₀, ps, rfl, hps⟩, rfl⟩ := he
  obtain ⟨hnodup, hvalues⟩ := distinctKeys_object_iff.1 hkeys
  have happly : empty.apply c.entries = c := apply_of_new hnodup hvalues
  have hcalls : configCalls [.expression (.call start (.member start'
      (.identifier start'' "System") "config") [.item (.object start₀ ps)])] =
      [[.item (.object start₀ ps)]] := by
    simp [configCalls, configCall?, receivers]
  have hmembers : callMembers [.item (.object start₀ ps)] = .ok c.entries := hps
  simp only [ofStatements, hcalls, List.foldlM_cons, List.foldlM_nil, hmembers]
  show Except.ok (empty.apply c.entries) = .ok c
  rw [happly]

theorem parse_render {c : LoaderConfig} {tab : String} (ht : IsTab tab.toList)
    (hkeys : c.DistinctKeys) (hints : HasReadIntegers c.toValue) (hnames : c.HasNameKeys) :
    parse (c.render tab) = .ok c := by
  obtain ⟨e, hparse, he⟩ := parse?_configCall ht hkeys hints hnames
  have htext : (c.render tab).toList = c.renderChars tab.toList := String.toList_ofList ..
  unfold parse
  rw [htext, hparse]
  exact ofStatements_call hkeys he

end LoaderConfig

/-! ## Saving and loading -/

namespace Session

variable {ε ε' : Type}

/-- The sessions over a configuration: they start with it and run, with steps in any order, and
whatever modules are entered in the ledger. -/
inductive Over (c₀ : LoaderConfig) : Session ε → Prop where
  | start (options : Options) (engine : Engine ε) (memory : ε) (disk : Disk) :
      Over c₀ (start options engine memory c₀ disk)
  | run (s : Session ε) (st : Concurrency.State ε) (h : Over c₀ s)
      (hr : Concurrency.Reachable s st) : Over c₀ st.session
  | register (s : Session ε) (id : String) (modules : List String) (h : Over c₀ s) :
      Over c₀ { s with config := s.config.register id modules }

theorem Over.distinctKeys {c₀ : LoaderConfig} (hc : c₀.DistinctKeys) {s : Session ε} (h : Over c₀ s) :
    s.config.DistinctKeys := by
  induction h with
  | start options engine memory disk => exact start_distinctKeys options engine memory disk hc
  | run s st _ hr ih => exact Concurrency.reachable_distinctKeys hr ih
  | register s id modules _ ih => exact ih.register id modules

theorem saveConfig_eq_ok {s s' : Session ε} {path : String} (h : s.saveConfig = (.ok path, s')) :
    s'.config = s.config ∧ s.disk.write path s.render = (.ok (), s'.disk) := by
  unfold saveConfig at h
  dsimp only at h
  split at h
  · rename_i disk hwrite
    simp only [finish, Prod.mk.injEq, Except.ok.injEq] at h
    obtain ⟨rfl, rfl⟩ := h
    exact ⟨rfl, hwrite⟩
  · simp [finish] at h

theorem saveConfig_succeeds_iff (s : Session ε) :
    (∃ path, s.saveConfig.1 = .ok path) ↔
      (s.disk.write s.options.systemJsConfig s.render).1 = .ok () := by
  unfold saveConfig
  dsimp only
  split
  · rename_i disk hwrite
    simp [finish, hwrite]
  · rename_i e disk hwrite
    simp [finish, hwrite]

/-- The configuration is saved whenever its file can be written, and the file is read as that
configuration. The next session that keeps the bundles starts with it. -/
theorem load_saveConfig {source : String} {c₀ : LoaderConfig}
    (hparse : LoaderConfig.parse source = .ok c₀) {s : Session ε} (hs : Over c₀ s)
    (hints : LoaderConfig.HasReadIntegers s.config.toValue) (hnames : s.config.HasNameKeys)
    (htab : LoaderConfig.IsTab s.options.tab.toList) :
    ((∃ path, s.saveConfig.1 = .ok path) ↔
        (s.disk.write s.options.systemJsConfig s.render).1 = .ok ()) ∧
      ∀ path s', s.saveConfig = (.ok path, s') →
        LoaderConfig.load s'.disk path = .ok s'.config ∧ s'.config = s.config ∧
          ∀ (options : Options) (engine : Engine ε') (memory : ε') (c : LoaderConfig),
            options.keepExistingBundles = true → LoaderConfig.load s'.disk path = .ok c →
              (start options engine memory c s'.disk).config = s'.config := by
  refine ⟨saveConfig_succeeds_iff s, fun path s' hsave => ?_⟩
  obtain ⟨hconfig, hwrite⟩ := saveConfig_eq_ok hsave
  have hkeys := hs.distinctKeys (LoaderConfig.parse_distinctKeys hparse)
  have hload : LoaderConfig.load s'.disk path = .ok s'.config := by
    unfold LoaderConfig.load
    rw [Disk.readText_of_write hwrite, hconfig]
    exact LoaderConfig.parse_render htab hkeys hints hnames
  refine ⟨hload, hconfig, fun options engine memory c hkeep hc => ?_⟩
  rw [config_start hkeep]
  rw [hload, Except.ok.injEq] at hc
  exact hc.symm

def mappedConfig : LoaderConfig :=
  ⟨[("depth", .number (.integer (-1))), ("map", .object [("lib", .string "vendor/lib")])]⟩

/-- Its file. -/
def mappedSource : String :=
  "System.config(\x7b\n  depth: -1,\n\n  map: \x7b\n    \"lib\": \"vendor/lib\"\n  \x7d\n\x7d);\n"

theorem render_mappedConfig : mappedConfig.render "  " = mappedSource := by decide +kernel

theorem hasReadIntegers_depth : LoaderConfig.HasReadIntegers (.number (.integer (-1))) := by
  intro n hn
  cases hn
  exact ⟨⟨-1, rfl⟩, true, 1, 1, _, by decide, rfl, rfl⟩

theorem hasReadIntegers_string (s : String) : LoaderConfig.HasReadIntegers (.string s) := nofun

theorem parse_mappedSource : LoaderConfig.parse mappedSource = .ok mappedConfig := by
  have hkeys : mappedConfig.DistinctKeys := by
    simp [LoaderConfig.DistinctKeys, LoaderConfig.toValue, mappedConfig, Entries.keys,
      Value.distinctKeys_object_iff, Value.distinctKeys_number, Value.distinctKeys_string]
  have hints : LoaderConfig.HasReadIntegers mappedConfig.toValue := by
    simp [LoaderConfig.toValue, mappedConfig, LoaderConfig.hasReadIntegers_object_iff,
      hasReadIntegers_depth, hasReadIntegers_string]
  have hnames : mappedConfig.HasNameKeys := by
    unfold LoaderConfig.HasNameKeys
    decide +kernel
  rw [← render_mappedConfig]
  exact LoaderConfig.parse_render (by decide) hkeys hints hnames

/-- A session over it that kept its bundles and entered one more. -/
def mappedSession : Session (List Engine.Call) :=
  let s := start { systemJsConfig := "system.js", keepExistingBundles := true }
    ({} : Engine.Table).naming [] mappedConfig {}
  { s with config := s.config.register "bundles/app" ["app/\"index\".js", "lib"] }

theorem over_mappedSession : Over mappedConfig mappedSession := (Over.start ..).register ..

theorem config_mappedSession : mappedSession.config = ⟨mappedConfig.entries ++
    [("bundles", .object [("bundles/app", .strings ["app/\"index\".js", "lib"])])]⟩ :=
  rfl

theorem hasReadIntegers_mappedSession :
    LoaderConfig.HasReadIntegers mappedSession.config.toValue := by
  rw [config_mappedSession]
  simp [LoaderConfig.toValue, mappedConfig, Value.strings, LoaderConfig.hasReadIntegers_object_iff,
    LoaderConfig.hasReadIntegers_array_iff, hasReadIntegers_depth, hasReadIntegers_string]

theorem hasNameKeys_mappedSession : mappedSession.config.HasNameKeys := by
  unfold LoaderConfig.HasNameKeys
  decide +kernel

theorem load_saveConfig_mapped :
    mappedSession.saveConfig.1.toOption = some "system.js" ∧
      mappedSession.config.bundles = [("bundles/app", ["app/\"index\".js", "lib"])] ∧
      LoaderConfig.load mappedSession.saveConfig.2.disk "system.js" = .ok mappedSession.config := by
  have hpath : mappedSession.saveConfig.1.toOption = some "system.js" := by decide +kernel
  have hsaved : mappedSession.saveConfig = (.ok "system.js", mappedSession.saveConfig.2) := by
    generalize mappedSession.saveConfig = outcome at hpath ⊢
    obtain ⟨_ | path, s'⟩ := outcome
    · cases hpath
    · cases hpath
      rfl
  have htab : LoaderConfig.IsTab mappedSession.options.tab.toList := by decide
  obtain ⟨-, h⟩ := @load_saveConfig _ Unit _ _ parse_mappedSource _ over_mappedSession
    hasReadIntegers_mappedSession hasNameKeys_mappedSession htab
  obtain ⟨hload, hconfig, -⟩ := h _ _ hsaved
  exact ⟨hpath, by decide +kernel, by rw [hload, hconfig]⟩

end Session

end BundleLedger
