import BundleLedger.Engine.Command
import BundleLedger.Event
import BundleLedger.Proofs.Json.Acceptance
import BundleLedger.Proofs.Json.Records

/-!
# What is exchanged is read as it was written

Graphs, bundles and the options of a compilation go to and from an engine as JSON, and events to
whoever keeps them. Each has a form of its own: a record is one object with its name among all else
that the engine noted, a bundle may lack a map, an event stands beside its kind. What is written in
these forms is read as what it was, if its numbers are integers of 64 bits and it is not nested too
deep.

A record that was read from the answer to a trace is among what can be written, and nests no deeper
than it did there (`Record.IsTraced.legible`). So a graph that was put together from such records
reaches the program that compiles it with all that the traces noted.

Results:

* `Graph.parse?_text`, `Bundle.parse?_text`, `CompileOptions.parse?_text` and `Event.parse?_text`: each
  form is read as it was written.
* `Engine.request_compile`: a program is sent a graph in the form in which it is read.
* `written_reads_back`: all of this together.
-/
namespace BundleLedger

open Json

/-! ## Records and graphs -/

namespace Record

theorem takes_toValue {limit : Nat} {r : Record} (h : Legible limit r.toValue) :
    decoder.Takes limit r.toValue r := by
  cases h with
  | @object limit members hkeys hmembers =>
    obtain ⟨hname, hnodup⟩ : "name" ∉ Entries.keys r.metadata ∧ (Entries.keys r.metadata).Nodup :=
      List.nodup_cons.1 hkeys
    have hunnamed : ∀ m ∈ r.metadata, ¬ m.1 = "name" := by
      intro m hm heq
      exact hname (heq ▸ Entries.mem_keys.2 ⟨m.2, hm⟩)
    have hnone : r.metadata.filter (fun m => m.1 = "name") = [] := by
      simpa [List.filter_eq_nil_iff] using hunnamed
    have hrest : r.metadata.filter (fun m => !decide (m.1 = "name")) = r.metadata := by
      simpa [List.filter_eq_self] using hunnamed
    have hpairs : Entries.ofPairs r.metadata = r.metadata :=
      Entries.putAll_eq_append (by simpa using hnodup)
    rw [Decoder.Takes, toValue, Tree.ofValue, decoder, Tree.members?_ofMembers hmembers]
    simp [hnone, hrest, hpairs]

end Record

namespace Graph

theorem takes_toValue {limit : Nat} {g : Graph} (h : Legible limit g.toValue) :
    decoder.Takes limit g.toValue g := by
  cases h with
  | object hkeys hrecords =>
    rw [Entries.keys, List.map_map] at hkeys
    refine Decoder.takes_entries hkeys fun e he => Record.takes_toValue ?_
    exact hrecords (e.1, e.2.toValue) (List.mem_map_of_mem he)

theorem parse?_text {g : Graph} (h : Legible nestingLimit g.toValue) :
    Graph.parse? g.toValue.text = some g :=
  Decoder.run_text h (takes_toValue h)

end Graph

/-! ## Bundles and options -/

namespace Bundle

theorem legible_toValue (limit : Nat) (b : Bundle) : Legible (limit + 2) b.toValue := by
  refine .object (by simp [Entries.keys]) ?_
  simp only [List.forall_mem_cons, List.not_mem_nil, IsEmpty.forall_iff, implies_true, and_true]
  refine ⟨.string _, ?_, .array ?_⟩
  · cases b.sourceMap with
    | none => exact .null
    | some map => exact .string map
  · intro v hv
    obtain ⟨s, -, rfl⟩ := List.mem_map.1 hv
    exact .string s

theorem takes_toValue (limit : Nat) (b : Bundle) : decoder.Takes (limit + 2) b.toValue b := by
  have hslots : Slots.of ["source", "sourceMap", "modules"] (limit + 2) (Tree.ofValue b.toValue) = _ :=
    Slots.of_ofValue [("source", _), ("sourceMap", _), ("modules", _)] (by simp [Entries.keys]) _
  have hstring : ∀ s, Decoder.string (limit + 1) (Tree.ofValue (.string s)) = some s :=
    Decoder.takes_string (limit + 1)
  have hmodules : (Decoder.list .string).Takes (limit + 1) (Value.strings b.modules) b.modules :=
    Decoder.takes_list fun s _ => Decoder.takes_string limit s
  rw [Decoder.Takes] at hmodules ⊢
  rw [decoder, hslots]
  obtain ⟨source, map?, modules⟩ := b
  cases map? with
  | none =>
    have hnone : Decoder.nullable .string (limit + 1) (Tree.ofValue .null) = some none := rfl
    simp [Decoder.required, Decoder.optional, hstring, hnone, hmodules]
  | some map =>
    have hsome : Decoder.nullable .string (limit + 1) (Tree.ofValue (.string map)) = some (some map) :=
      congrArg (Option.map some) (hstring map)
    simp [Decoder.required, Decoder.optional, hstring, hsome, hmodules]

theorem parse?_text (b : Bundle) : Bundle.parse? b.toValue.text = some b :=
  Decoder.run_text (b.legible_toValue 125) (b.takes_toValue 125)

end Bundle

namespace CompileOptions

theorem legible_toValue (limit : Nat) (o : CompileOptions) : Legible (limit + 1) o.toValue := by
  refine .object (by simp [Entries.keys]) ?_
  simp only [List.forall_mem_cons, List.not_mem_nil, IsEmpty.forall_iff, implies_true, and_true]
  exact ⟨.bool _, .bool _, .bool _⟩

theorem takes_toValue (limit : Nat) (o : CompileOptions) : decoder.Takes (limit + 1) o.toValue o := by
  have hslots : Slots.of ["sourceMaps", "minify", "cssOptimize"] (limit + 1)
      (Tree.ofValue o.toValue) = _ :=
    Slots.of_ofValue [("sourceMaps", _), ("minify", _), ("cssOptimize", _)] (by simp [Entries.keys]) _
  have hbool : ∀ b, Decoder.bool limit (Tree.ofValue (.bool b)) = some b := Decoder.takes_bool limit
  rw [Decoder.Takes, decoder, hslots]
  simp [Decoder.required, hbool]

theorem parse?_text (o : CompileOptions) : CompileOptions.parse? o.toValue.text = some o :=
  Decoder.run_text (o.legible_toValue 126) (o.takes_toValue 126)

end CompileOptions

/-! ## Events -/

namespace Event

theorem keys_payload (e : Event) : Entries.keys e.payload = e.kind.fields := by
  cases e <;> rfl

theorem Kind.nodup_fields (kind : Kind) : kind.fields.Nodup := by
  cases kind <;> simp [fields]

theorem Kind.ofText?_text (kind : Kind) : ofText? kind.text = some kind := by
  cases kind <;> decide

theorem takes_kind (limit : Nat) (kind : Kind) : kindDecoder.Takes limit (.string kind.text) kind := by
  rw [Decoder.Takes, Tree.ofValue, kindDecoder, decodeText_encode]
  exact Kind.ofText?_text kind

theorem takes_payload (limit : Nat) {e : Event} (h : e.toValue.HasWords) :
    (payloadDecoder e.kind).Takes (limit + 1) (.object e.payload) e := by
  have hslots : Slots.ofMembers e.kind.fields (Tree.ofMembers e.payload) =
      some (e.payload.map fun m => some (Tree.ofValue m.2)) := by
    rw [← keys_payload]
    exact Slots.ofMembers_ofMembers (by rw [keys_payload]; exact Kind.nodup_fields _)
  have hstring : ∀ s, Decoder.string limit (Tree.ofValue (.string s)) = some s :=
    Decoder.takes_string limit
  rw [Decoder.Takes, Tree.ofValue, payloadDecoder, hslots]
  cases e with
  | bundleWritten id path modules =>
    have hpayload : Value.HasWords (.object (payload (.bundleWritten id path modules))) :=
      Value.hasWords_object_iff.1 h ("payload", _) (by simp)
    have hword : Value.HasWords (.number (.integer modules)) :=
      Value.hasWords_object_iff.1 hpayload ("modules", _) (by simp [payload])
    have hcount : modules < Decimal.wordSize := by
      have hhigh := (hword _ .self).2
      omega
    have hmodules := Decoder.takes_count limit hcount
    rw [Decoder.Takes] at hmodules
    simp [kind, payload, Decoder.required, hstring, hmodules]
  | bundleSkipped root => simp [kind, payload, Decoder.required, hstring]
  | packageSkipped name reason => simp [kind, payload, Decoder.required, hstring]
  | configSaved path => simp [kind, payload, Decoder.required, hstring]
  | failed operation error => simp [kind, payload, Decoder.required, hstring]

theorem distinctKeys_toValue (e : Event) : e.toValue.DistinctKeys := by
  cases e <;> simp [toValue, payload, Value.distinctKeys_object_iff, Value.distinctKeys_string,
    Value.distinctKeys_number, Entries.keys]

theorem depth_toValue (e : Event) : e.toValue.depth = 2 := by
  cases e <;> rfl

theorem legible_toValue (limit : Nat) {e : Event} (h : e.toValue.HasWords) :
    Legible (limit + 2) e.toValue :=
  Value.legible_of_depth _ h e.distinctKeys_toValue (by rw [depth_toValue]; omega)

theorem takes_toValue (limit : Nat) {e : Event} (h : e.toValue.HasWords) :
    decoder.Takes (limit + 2) e.toValue e := by
  have hkind : kindDecoder (limit + 1) (Tree.ofValue (.string e.kind.text)) = some e.kind :=
    takes_kind (limit + 1) e.kind
  have hpayload : payloadDecoder e.kind (limit + 1) (Tree.ofValue (.object e.payload)) = some e :=
    takes_payload limit h
  rw [Decoder.Takes, toValue, Tree.ofValue, decoder]
  simp only [Tree.ofMembers, List.mapM_cons, List.mapM_nil, decodeText_encode]
  simp [hkind, hpayload]

theorem parse?_text {e : Event} (h : e.toValue.HasWords) : Event.parse? e.toValue.text = some e :=
  Decoder.run_text (legible_toValue 125 h) (takes_toValue 125 h)

end Event

/-! ## From a trace to a compilation -/

theorem mem_memberNumbers {raw : List Char} {item : Tree} {members : List (List Char × Tree)}
    (h : (raw, item) ∈ members) {n : NumberLiteral} (hn : n ∈ item.numbers) :
    n ∈ Tree.memberNumbers members := by
  induction members with
  | nil => cases h
  | cons m members ih =>
    rw [Tree.memberNumbers, List.mem_append]
    rcases List.mem_cons.1 h with rfl | h
    · exact .inl hn
    · exact .inr (ih h)

namespace Record

/-- What was read as a record can be written, and nests no deeper. -/
theorem legible_of_decoder {limit : Nat} {tree : Tree} {r : Record} (h : decoder limit tree = some r)
    (hwords : ∀ n ∈ tree.numbers, n.IsWord) : Legible limit r.toValue := by
  unfold decoder at h
  split at h
  · rename_i limit members
    obtain ⟨pairs, hpairs, h⟩ := Option.bind_eq_some_iff.1 h
    have hlegible := legible_of_members? members hpairs hwords
    split at h
    · rename_i name _
      cases h
      have hmem : ∀ m ∈ Entries.ofPairs (pairs.filter (·.1 ≠ "name")), m ∈ pairs ∧ m.1 ≠ "name" := by
        intro m hm
        simpa using (Entries.mem_of_mem_putAll hm).resolve_left List.not_mem_nil
      refine .object (List.nodup_cons.2 ⟨?_, Entries.keys_nodup_putAll List.nodup_nil⟩) ?_
      · intro hname
        obtain ⟨v, hv⟩ := Entries.mem_keys.1 hname
        exact (hmem _ hv).2 rfl
      · rw [List.forall_mem_cons]
        exact ⟨.string _, fun m hm => hlegible m (hmem m hm).1⟩
    · cases h
  · cases h

/-- The record stands in the answer to some trace, in which all numbers are integers of 64 bits. -/
def IsTraced (r : Record) : Prop :=
  ∃ answer tree traced key, Tree.read? answer.toList = some tree ∧ (∀ n ∈ tree.numbers, n.IsWord) ∧
    Graph.parse? answer = some traced ∧ (key, r) ∈ traced

theorem IsTraced.legible {r : Record} (h : r.IsTraced) : Legible 126 r.toValue := by
  obtain ⟨answer, tree, traced, key, hread, hwords, hparse, hmem⟩ := h
  have hentries : Graph.decoder nestingLimit tree = some traced := by
    rw [Graph.parse?, Decoder.run, hread] at hparse
    exact hparse
  obtain ⟨limit, members, raw, item, hlimit, rfl, hitem, hrecord⟩ :=
    Decoder.exists_of_mem_entries hentries hmem
  cases hlimit
  exact legible_of_decoder hrecord fun n hn => hwords n (mem_memberNumbers hitem hn)

end Record

/-- The keys of a graph are distinct, and so are those of its records, at every level and beside the
name; its numbers are integers of 64 bits, and it is not nested too deep to be read. -/
structure Graph.Portable (g : Graph) : Prop where
  keys : (Entries.keys g).Nodup
  unnamed : ∀ e ∈ g, "name" ∉ Entries.keys e.2.metadata
  metadata : ∀ e ∈ g, Value.DistinctKeys (.object e.2.metadata)
  words : g.toValue.HasWords
  nesting : g.toValue.depth ≤ nestingLimit

theorem Graph.Portable.legible {g : Graph} (h : g.Portable) : Legible nestingLimit g.toValue := by
  refine Value.legible_of_depth _ h.words (Value.distinctKeys_object_iff.2 ⟨?_, ?_⟩) h.nesting
  · rw [Entries.keys, List.map_map]
    exact h.keys
  · intro m hm
    obtain ⟨e, he, rfl⟩ := List.mem_map.1 hm
    have hmetadata := Value.distinctKeys_object_iff.1 (h.metadata e he)
    refine Value.distinctKeys_object_iff.2 ⟨List.nodup_cons.2 ⟨h.unnamed e he, hmetadata.1⟩, ?_⟩
    rw [List.forall_mem_cons]
    exact ⟨Value.distinctKeys_string _, hmetadata.2⟩

theorem Graph.legible_of_traced {g : Graph} (hkeys : (Entries.keys g).Nodup)
    (h : ∀ e ∈ g, e.2.IsTraced) : Legible nestingLimit g.toValue := by
  refine .object ?_ fun m hm => ?_
  · rw [Entries.keys, List.map_map]
    exact hkeys
  · obtain ⟨e, he, rfl⟩ := List.mem_map.1 hm
    exact (h e he).legible

/-- A program is sent the text of a graph as it is. -/
theorem Engine.request_compile (config : LoaderConfig) (g : Graph) (options : CompileOptions) :
    Engine.request config [("tree", g.toValue), ("options", options.toValue)] =
      Text.utf8 ("\x7b\"config\":" ++ config.toValue.text ++ ",\"tree\":" ++ g.toValue.text ++
        ",\"options\":" ++ options.toValue.text ++ "\x7d").toList := by
  have hconfig : quote "config".toList = ['"', 'c', 'o', 'n', 'f', 'i', 'g', '"'] := by decide
  have htree : quote "tree".toList = ['"', 't', 'r', 'e', 'e', '"'] := by decide
  have hoptions : quote "options".toList = ['"', 'o', 'p', 't', 'i', 'o', 'n', 's', '"'] := by decide
  rw [Engine.request, Value.text, Value.compact, Value.compactMembers, Value.compactMembers, hconfig,
    htree, hoptions]
  simp [Value.text, Value.compactMembers]

/-- All that is exchanged is read as it was written: graphs whatever their keys and whatever the engine
noted in their records, bundles, options and events. What the answers to traces said of the modules
reaches the program that compiles them. -/
theorem written_reads_back :
    (∀ g : Graph, g.Portable → Graph.parse? g.toValue.text = some g) ∧
      (∀ b : Bundle, Bundle.parse? b.toValue.text = some b) ∧
      (∀ o : CompileOptions, CompileOptions.parse? o.toValue.text = some o) ∧
      (∀ e : Event, e.toValue.HasWords → Event.parse? e.toValue.text = some e) ∧
      ∀ (g : Graph) (config : LoaderConfig) (options : CompileOptions), (Entries.keys g).Nodup →
        (∀ e ∈ g, e.2.IsTraced) → Graph.parse? g.toValue.text = some g ∧
          Engine.request config [("tree", g.toValue), ("options", options.toValue)] =
            Text.utf8 ("\x7b\"config\":" ++ config.toValue.text ++ ",\"tree\":" ++
              g.toValue.text ++ ",\"options\":" ++ options.toValue.text ++ "\x7d").toList := by
  refine ⟨?_, Bundle.parse?_text, CompileOptions.parse?_text, fun _ h => Event.parse?_text h, ?_⟩
  · intro g hg
    exact Graph.parse?_text hg.legible
  · intro g config options hkeys htraced
    exact ⟨Graph.parse?_text (Graph.legible_of_traced hkeys htraced),
      Engine.request_compile config g options⟩

/-- A graph with a key that is not the name of its record, and metadata of every kind. -/
def sampleGraph : Graph :=
  [("a", ⟨"npm:a@1/\"a\".js", [("deps", .array [.string "b.js", .null]), ("", .bool false),
      ("meta", .object [("name", .number (.integer (-3))), ("size", .array [])])]⟩),
    ("b.js", ⟨"b.js", []⟩)]

def sampleGraphText : String :=
  "\x7b\"a\":\x7b\"name\":\"npm:a@1/\\\"a\\\".js\",\"deps\":[\"b.js\",null],\"\":false," ++
    "\"meta\":\x7b\"name\":-3,\"size\":[]\x7d\x7d,\"b.js\":\x7b\"name\":\"b.js\"\x7d\x7d"

theorem written_reads_back_sample : sampleGraph.Portable ∧ (∀ e ∈ sampleGraph, e.2.IsTraced) ∧
    Graph.parse? sampleGraphText = some sampleGraph ∧
    (Event.bundleWritten "bundles/a" "out/a.js" 2).toValue.HasWords ∧
    Event.parse? (Event.bundleWritten "bundles/a" "out/a.js" 2).toValue.text =
      some (.bundleWritten "bundles/a" "out/a.js" 2) ∧
    Engine.request .empty [("tree", sampleGraph.toValue),
        ("options", CompileOptions.toValue ⟨true, false, true⟩)] =
      Text.utf8 ("\x7b\"config\":\x7b\x7d,\"tree\":" ++ sampleGraphText ++ ",\"options\":" ++
        "\x7b\"sourceMaps\":true,\"minify\":false,\"cssOptimize\":true\x7d\x7d").toList := by
  have hportable : sampleGraph.Portable :=
    ⟨by decide, by decide, by decide, by decide, by decide⟩
  have hevent : (Event.bundleWritten "bundles/a" "out/a.js" 2).toValue.HasWords := by decide
  have htext : sampleGraph.toValue.text = sampleGraphText := by decide +kernel
  obtain ⟨hgraphs, -, -, hevents, hsent⟩ := written_reads_back
  have hparse : Graph.parse? sampleGraphText = some sampleGraph := by
    rw [← htext]
    exact hgraphs sampleGraph hportable
  have hread : Tree.read? sampleGraphText.toList = some (Tree.ofValue sampleGraph.toValue) := by
    rw [← htext]
    exact read?_text hportable.legible
  have hnumbers : (Tree.ofValue sampleGraph.toValue).numbers = [wholeLiteral true 3] := by rfl
  have hwords : ∀ n ∈ (Tree.ofValue sampleGraph.toValue).numbers, n.IsWord := by
    rw [hnumbers, List.forall_mem_singleton]
    exact NumberLiteral.isWord_of_number? (number?_negative (by decide) (by decide))
  have htraced : ∀ e ∈ sampleGraph, e.2.IsTraced := fun e he =>
    ⟨sampleGraphText, _, sampleGraph, e.1, hread, hwords, hparse, he⟩
  refine ⟨hportable, htraced, hparse, hevent, hevents _ hevent, ?_⟩
  rw [(hsent sampleGraph .empty ⟨true, false, true⟩ hportable.keys htraced).2, htext]
  have hconfig : LoaderConfig.empty.toValue.text = "\x7b\x7d" := by decide +kernel
  have hoptions : (CompileOptions.toValue ⟨true, false, true⟩).text =
      "\x7b\"sourceMaps\":true,\"minify\":false,\"cssOptimize\":true\x7d" := by decide +kernel
  rw [hconfig, hoptions]
  simp

end BundleLedger
