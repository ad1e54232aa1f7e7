import BundleLedger.Proofs.ComponentSelection
import BundleLedger.Proofs.Disk.ReadBack
import BundleLedger.Proofs.KeyedAnswers
import BundleLedger.Proofs.Session.Commits

/-!
# A group of one

A component is bundled by its entry file, or as the only component of a group, and packages on their
own, or as the only packages of a group. These are different pipelines: a group finds the entry file
of a component by its name, merges what it selects into an empty graph and is saved under a name that
it is given. They come to the same.

What has to be seen of names is that a root is written in one way only: without `\`, without `/` at
its end, and `.` for the project. What has to be seen of graphs is that a selection of a graph with
distinct keys has distinct keys, so that merging it into the empty graph leaves it as it is.

**Hypothesis.** The graphs that the engine traces have each key once (`Engine.TracesKeyed`). A graph
is read as entries, so this holds of every engine in a program.

Results:

* `forRoot_ofName`: a component and its root name the same target.
* `group_component` and `group_packages`: what a group of one does.
* `groups_of_one`: the operations agree.
-/
namespace BundleLedger

/-! ## Roots -/

namespace Text

theorem dropTrailing_idem (p : Char → Bool) (s : List Char) :
    dropTrailing p (dropTrailing p s) = dropTrailing p s := by
  refine Disk.dropTrailing_of_getLast fun c hc => ?_
  have hlast := List.head?_dropWhile_not p s.reverse
  rw [dropTrailing, List.getLast?_reverse] at hc
  rw [hc] at hlast
  simpa using hlast

theorem mem_of_mem_dropTrailing {p : Char → Bool} {s : List Char} {c : Char}
    (h : c ∈ dropTrailing p s) : c ∈ s :=
  List.mem_reverse.1 ((List.dropWhile_suffix p).subset (List.mem_reverse.1 h))

end Text

namespace Target

theorem backslash_not_mem_trimmedRoot (root : String) : '\\' ∉ trimmedRoot root :=
  fun h => Text.not_mem_replaceChar (by decide) _ (Text.mem_of_mem_dropTrailing h)

/-- A root in its usual form is not trimmed any further. -/
theorem trimmedRoot_ofList_trimmedRoot (root : String) :
    trimmedRoot (String.ofList (trimmedRoot root)) = trimmedRoot root := by
  have hplain := Text.replaceChar_of_not_mem (b := '/') (backslash_not_mem_trimmedRoot root)
  rw [trimmedRoot, String.toList_ofList, hplain]
  exact Text.dropTrailing_idem _ _

end Target

namespace ComponentRoot

open ModuleName Target

theorem ofName_eq (name : String) : ofName name = orProject (trimmedRoot name) := by
  rw [ofName, normalized, String.toList_ofList, trimmedRoot]

theorem ofName_cases (name : String) :
    trimmedRoot name = [] ∧ ofName name = "." ∨
      trimmedRoot name ≠ [] ∧ ofName name = String.ofList (trimmedRoot name) := by
  rw [ofName_eq, orProject]
  split
  · exact .inl ⟨‹_›, rfl⟩
  · exact .inr ⟨‹_›, rfl⟩

/-- A component and its root name the same target. -/
theorem forRoot_ofName (name : String) (options : Options) :
    forRoot (ofName name) options = forRoot name options := by
  obtain ⟨hnil, hname⟩ | ⟨-, hname⟩ := ofName_cases name <;> rw [hname]
  · have hdot : trimmedRoot "." = ['.'] := by decide
    simp only [forRoot, hnil, hdot]
    rfl
  · simp only [forRoot, trimmedRoot_ofList_trimmedRoot]

/-- The entry file of a component has its usual name. -/
theorem normalized_entry (name : String) :
    normalized (entry (ofName name)) = entry (ofName name) := by
  have hplain : '\\' ∉ (entry (ofName name)).toList := by
    obtain ⟨-, hname⟩ | ⟨-, hname⟩ := ofName_cases name <;> rw [hname]
    · decide
    · unfold entry
      split
      · decide
      · have hroot := backslash_not_mem_trimmedRoot name
        simp [hroot, entryFile]
  exact normalized_of_not_mem hplain

/-- The entry file of a component leads back to its root. -/
theorem ofEntry_ofName (name : String) : ofEntry (entry (ofName name)) = ofName name := by
  obtain ⟨-, hname⟩ | ⟨hne, hname⟩ := ofName_cases name <;> rw [hname]
  · decide
  · by_cases hdot : String.ofList (trimmedRoot name) = "."
    · rw [hdot]
      decide
    · exact ofEntry_entry hdot fun h => hne (by simpa using h)

end ComponentRoot

/-! ## Merging into nothing -/

namespace Graph

theorem merge_nil {graph : Graph} (h : (Entries.keys graph).Nodup) : merge [] graph = graph :=
  Entries.putAll_eq_append (by simpa using h)

theorem keys_nodup_keepNames {graph : Graph} (h : (Entries.keys graph).Nodup)
    (keep : String → Bool) : (Entries.keys (Selection.keepNames keep graph)).Nodup :=
  h.sublist (List.filter_sublist.map _)

end Graph

namespace Session

open ComponentRoot

variable {ε : Type} {s : Session ε}

theorem keys_nodup_componentModules {graph : Graph} (h : (Entries.keys graph).Nodup) (root : String) :
    (Entries.keys (s.componentModules root graph)).Nodup := by
  rw [s.componentModules_eq_filter root graph]
  exact h.sublist (List.filter_sublist.map _)

theorem keys_nodup_packageModules {graph : Graph} (h : (Entries.keys graph).Nodup)
    (names : List String) : (Entries.keys (s.packageModules names graph)).Nodup := by
  rw [packageModules, Selection.unbundled, Selection.packages]
  exact Graph.keys_nodup_keepNames (Graph.keys_nodup_keepNames h _) _

theorem keys_nodup_trace (hk : s.engine.TracesKeyed) {expression : String} {graph : Graph}
    {s' : Session ε} (h : s.trace expression = (.ok graph, s')) : (Entries.keys graph).Nodup := by
  unfold trace at h
  split at h
  · rename_i heq
    cases h
    exact hk _ _ _ _ (by rw [heq])
  · cases h

/-! ## Groups -/

/-- A group with one component bundles it as its entry file does. -/
theorem group_component (hk : s.engine.TracesKeyed) (name : String) :
    s.group [name] [] (ofName name) = (componentPipeline (entry (ofName name))).run s := by
  simp only [group, List.map_cons, List.map_nil, traceAll, componentPipeline, Pipeline.run,
    normalized_entry, ofEntry_ofName]
  rcases h : s.trace (entry (ofName name)) with ⟨e | graph, s'⟩
  · rfl
  · have hkeys := s'.keys_nodup_componentModules (keys_nodup_trace hk h) (ofName name)
    show s'.compileAndSave (ofName name) (Graph.merge [] (s'.componentModules (ofName name) graph)) =
      s'.compileAndSave (ofName name) (s'.componentModules (ofName name) graph)
    rw [Graph.merge_nil hkeys]

/-- A group without components bundles its packages as they are on their own. -/
theorem group_packages (hk : s.engine.TracesKeyed) {names : List String} (hne : names ≠ [])
    (saveAs : String) :
    s.group [] names saveAs = (packagesPipeline names (some saveAs)).run s := by
  have hsome : names.isEmpty = false := by simpa using hne
  simp only [group, List.map_nil, traceAll, traceVendor, hsome, packagesPipeline, Pipeline.run]
  rcases h : s.trace (Engine.expression names) with ⟨e | graph, s'⟩
  · rfl
  · have hkeys := s'.keys_nodup_packageModules (keys_nodup_trace hk h) names
    show s'.compileAndSave saveAs (Graph.merge [] (s'.packageModules names graph)) =
      s'.compileAndSave saveAs (s'.packageModules names graph)
    rw [Graph.merge_nil hkeys]

end Session

/-! ## Agreement -/

/-- The event with another name of the operation that failed. -/
def Event.renamed (operation : String) : Event → Event
  | .failed _ error => .failed operation error
  | event => event

theorem Event.renamed_of_isOutcome {event : Event} (h : event.isOutcome = true) (operation : String) :
    event.renamed operation = event := by
  cases event <;> simp_all [isOutcome, renamed]

namespace Session

open ComponentRoot

variable {ε : Type} {s : Session ε}

/-- Two operations on a session have the same answer and leave the same session, but for the names
`first` and `second` under which a failure is reported. -/
structure Agree {α : Type} (s : Session ε) (first second : String) (a b : Outcome ε α) : Prop where
  answer : b.1 = a.1
  /-- Ledger, files, settings and engine are the same. -/
  session : b.2 = { a.2 with events := b.2.events }
  events : ∃ news : List Event, a.2.events = s.events ++ news.map (Event.renamed first) ∧
    b.2.events = s.events ++ news.map (Event.renamed second)

theorem agree_finish {out : Outcome ε (Option Target)} (h : Commits s out) (first second : String) :
    Agree s first second (finish first out) (finish second out) := by
  obtain ⟨news, hevents, houtcomes⟩ := h.reports
  have hrenamed : ∀ operation, news.map (Event.renamed operation) = news := fun operation =>
    (List.map_congr_left fun event hevent =>
      Event.renamed_of_isOutcome (houtcomes event hevent) operation).trans (List.map_id news)
  obtain ⟨result, s'⟩ := out
  cases result with
  | ok written =>
    refine ⟨rfl, rfl, news, ?_, ?_⟩ <;> rw [hrenamed] <;> exact hevents
  | error e =>
    refine ⟨rfl, rfl, news ++ [.failed first e.message], ?_, ?_⟩ <;>
      rw [List.map_append, hrenamed, ← List.append_assoc, ← hevents] <;> rfl

/-- A group of one and what it stands for: a component and its entry file, packages with and without
a group around them. -/
theorem groups_of_one (s : Session ε) (hk : s.engine.TracesKeyed) :
    (∀ name : String,
      Agree s "bundle_components" "bundle_component" (s.components [name] (ofName name))
          (s.component (entry (ofName name))) ∧
        ∀ options, Target.forRoot (ofName name) options = Target.forRoot name options) ∧
      ∀ (names : List String) (saveAs : String), names ≠ [] →
        Agree s "bundle" "bundle_packages" (s.bundle [] names saveAs)
          (s.packages names (some saveAs)) := by
  refine ⟨fun name => ⟨?_, forRoot_ofName name⟩, fun names saveAs hne => ?_⟩
  · rw [components, component, group_component hk]
    exact agree_finish (commits_run (isCommit_componentPipeline _) s) _ _
  · rw [bundle, packages, group_packages hk hne]
    exact agree_finish (commits_run (isCommit_packagesPipeline names _) s) _ _

/-- The component `a` is named with a separator at its end, and the packages cannot be traced. -/
theorem groups_of_one_nested :
    ((nestedSession.components ["a\\"] "a").2.events =
        [.bundleWritten "bundles/a" "build/bundles/a.js" 1] ∧
      Agree nestedSession "bundle_components" "bundle_component"
        (nestedSession.components ["a\\"] "a") (nestedSession.component "a/index.js")) ∧
      (nestedSession.packages ["x", "y"] (some "z")).2.events =
        [.failed "bundle_packages" "Engine failed: Trace of 'x + y' failed: unreadable"] ∧
      Agree nestedSession "bundle" "bundle_packages" (nestedSession.bundle [] ["x", "y"] "z")
        (nestedSession.packages ["x", "y"] (some "z")) := by
  have hk : nestedSession.engine.TracesKeyed := Engine.Table.tracesKeyed_engine _
  have hall := groups_of_one nestedSession hk
  exact ⟨⟨by decide +kernel, (hall.1 "a\\").1⟩, by decide +kernel, hall.2 ["x", "y"] "z" (by decide)⟩

end Session

end BundleLedger
