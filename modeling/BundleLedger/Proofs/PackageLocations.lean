import BundleLedger.Proofs.Text.Sorting
import BundleLedger.Selection
import Mathlib.Data.Finset.Card
import Mathlib.Order.Bounds.Basic

/-!
# The locations of kept packages

The dependencies that `map` lists make a graph of locations, which may have cycles and may share
nodes. The search for all that some packages lead to takes a pending location, in whatever order,
and finds those of its dependencies that are new (`Turn`). A dependency is found once, and `map`
lists finitely many, so the search ends (`Turns.length_le`). What is found is always needed, and what
is found and no longer pending has its dependencies found (`Sound`), so that in the end nothing is
missing.

Results:

* `Turns.sound`: the invariant of the search.
* `closeLocations_turns`: the search that is computed is one of these, and it comes to its end.
* `packageLocations_least_closed`: the locations of some packages, whatever `map` holds.
-/
namespace BundleLedger.Selection

variable {c : LoaderConfig} {names : List String}

/-! ## What packages lead to -/

/-- A set of locations with all that some packages lead to: a package that `map` gives a location has
it there, any other one is its own location, and the dependencies of a location are there as well. -/
structure Closed (c : LoaderConfig) (names : List String) (locations : Set String) : Prop where
  mapped : ∀ name ∈ names, ∀ l, c.mapEntry? name = some (.string l) → l ∈ locations
  unmapped : ∀ name ∈ names, (∀ l, c.mapEntry? name ≠ some (.string l)) → name ∈ locations
  dependencies : ∀ l ∈ locations, ∀ members, c.mapEntry? l = some (.object members) →
    ∀ key dependency, (key, .string dependency) ∈ members → dependency ∈ locations

theorem mem_dependenciesOf_iff {l dependency : String} : dependency ∈ c.dependenciesOf l ↔
    ∃ members, c.mapEntry? l = some (.object members) ∧
      ∃ key, (key, .string dependency) ∈ members := by
  have hentry : ∀ members, (c.mapEntry? l).bind Json.Value.members? = some members ↔
      c.mapEntry? l = some (.object members) := by
    intro members
    simp only [Option.bind_eq_some_iff, Json.Value.members?_eq_some_iff, exists_eq_right]
  unfold LoaderConfig.dependenciesOf
  cases hm : (c.mapEntry? l).bind Json.Value.members? with
  | none =>
    have hnone : ∀ members, c.mapEntry? l ≠ some (.object members) := by
      intro members he
      rw [(hentry members).2 he] at hm
      cases hm
    simp [hnone]
  | some members =>
    simp only [(hentry members).1 hm, Option.some.injEq, Json.Value.object.injEq, exists_eq_left',
      List.mem_filterMap, Json.Value.string?_eq_some_iff, Prod.exists]
    constructor
    · rintro ⟨key, v, h, rfl⟩
      exact ⟨key, h⟩
    · rintro ⟨key, h⟩
      exact ⟨key, _, h, rfl⟩

theorem packageLocation_cases (c : LoaderConfig) (name : String) :
    c.mapEntry? name = some (.string (packageLocation c name)) ∨
      (∀ l, c.mapEntry? name ≠ some (.string l)) ∧ packageLocation c name = name := by
  unfold packageLocation LoaderConfig.locationOf?
  cases h : (c.mapEntry? name).bind Json.Value.string? with
  | none =>
    refine .inr ⟨fun l he => ?_, rfl⟩
    rw [he] at h
    cases h
  | some l =>
    obtain ⟨v, hv, hs⟩ := Option.bind_eq_some_iff.1 h
    exact .inl (by rw [hv, Json.Value.string?_eq_some_iff.1 hs]; rfl)

theorem closed_iff {locations : Set String} : Closed c names locations ↔
    (∀ name ∈ names, packageLocation c name ∈ locations) ∧
      ∀ l ∈ locations, ∀ dependency ∈ c.dependenciesOf l, dependency ∈ locations := by
  constructor
  · intro h
    refine ⟨fun name hname => ?_, fun l hl dependency hd => ?_⟩
    · rcases packageLocation_cases c name with hmapped | ⟨hunmapped, he⟩
      · exact h.mapped name hname _ hmapped
      · rw [he]
        exact h.unmapped name hname hunmapped
    · obtain ⟨members, hmembers, key, hkey⟩ := mem_dependenciesOf_iff.1 hd
      exact h.dependencies l hl members hmembers key dependency hkey
  · rintro ⟨hstart, hnext⟩
    refine ⟨fun name hname l hl => ?_, fun name hname hunmapped => ?_, ?_⟩
    · have hmem := hstart name hname
      rwa [packageLocation, LoaderConfig.locationOf?, hl] at hmem
    · rcases packageLocation_cases c name with hmapped | ⟨-, he⟩
      · exact absurd hmapped (hunmapped _)
      · exact he ▸ hstart name hname
    · intro l hl members hmembers key dependency hkey
      exact hnext l hl dependency (mem_dependenciesOf_iff.2 ⟨members, hmembers, key, hkey⟩)

/-! ## The search -/

/-- The locations whose dependencies are still to be looked at, and all that are found. -/
structure Search where
  pending : List String
  found : List String

/-- The dependencies of a location that are not found yet. -/
def fresh (c : LoaderConfig) (found : List String) (location : String) : List String :=
  ((c.dependenciesOf location).filter (!found.contains ·)).eraseDups

/-- A pending location is taken, whichever it is, and its new dependencies are found. -/
inductive Turn (c : LoaderConfig) : Search → Search → Prop where
  | take (before after found : List String) (location : String) :
    Turn c ⟨before ++ location :: after, found⟩
      ⟨fresh c found location ++ (before ++ after), found ++ fresh c found location⟩

/-- So many turns. -/
inductive Turns (c : LoaderConfig) : Nat → Search → Search → Prop where
  | none (s : Search) : Turns c 0 s s
  | turn {n : Nat} {s s' s'' : Search} (ht : Turn c s s') (h : Turns c n s' s'') :
    Turns c (n + 1) s s''

/-- A search for the locations of some packages begins with their own. -/
def Search.start (c : LoaderConfig) (names : List String) : Search :=
  let locations := (names.map (packageLocation c)).eraseDups
  ⟨locations, locations⟩

theorem mem_fresh_iff {found : List String} {location dependency : String} :
    dependency ∈ fresh c found location ↔
      dependency ∈ c.dependenciesOf location ∧ dependency ∉ found := by
  simp [fresh, List.mem_eraseDups]

/-! ### What is found -/

/-- What is found is needed, and what it leads to is found or pending. -/
structure Sound (c : LoaderConfig) (names : List String) (s : Search) : Prop where
  start : ∀ name ∈ names, packageLocation c name ∈ s.found
  needed : ∀ locations, Closed c names locations → ∀ l ∈ s.found, l ∈ locations
  pending : ∀ l ∈ s.pending, l ∈ s.found
  followed : ∀ l ∈ s.found, l ∈ s.pending ∨ ∀ dependency ∈ c.dependenciesOf l, dependency ∈ s.found
  nodup : s.found.Nodup

theorem sound_start (c : LoaderConfig) (names : List String) : Sound c names (.start c names) where
  start name hname := by
    rw [Search.start, List.mem_eraseDups]
    exact List.mem_map_of_mem hname
  needed locations h l hl := by
    rw [Search.start, List.mem_eraseDups] at hl
    obtain ⟨name, hname, rfl⟩ := List.mem_map.1 hl
    exact (closed_iff.1 h).1 name hname
  pending l hl := hl
  followed l hl := .inl hl
  nodup := Text.nodup_eraseDups _

theorem Sound.turn {s s' : Search} (h : Sound c names s) (ht : Turn c s s') : Sound c names s' := by
  obtain ⟨before, after, found, location⟩ := ht
  have hlocation : location ∈ found := h.pending location (by simp)
  refine ⟨fun name hname => ?_, fun locations hclosed l hl => ?_, fun l hl => ?_, fun l hl => ?_, ?_⟩
  · exact List.mem_append_left _ (h.start name hname)
  · rcases List.mem_append.1 hl with hl | hl
    · exact h.needed locations hclosed l hl
    · exact (closed_iff.1 hclosed).2 location (h.needed locations hclosed location hlocation) l
        (mem_fresh_iff.1 hl).1
  · rcases List.mem_append.1 hl with hl | hl
    · exact List.mem_append_right _ hl
    · refine List.mem_append_left _ (h.pending l ?_)
      rw [List.mem_append] at hl
      exact List.mem_append.2 (hl.imp_right (List.mem_cons_of_mem _))
  · -- the location that was taken is the only one that leaves the pending ones
    have hdependencies : ∀ dependency ∈ c.dependenciesOf location,
        dependency ∈ found ++ fresh c found location := by
      intro dependency hd
      by_cases hf : dependency ∈ found
      · exact List.mem_append_left _ hf
      · exact List.mem_append_right _ (mem_fresh_iff.2 ⟨hd, hf⟩)
    rcases List.mem_append.1 hl with hl | hl
    · rcases h.followed l hl with hpending | hfollowed
      · simp only [List.mem_append, List.mem_cons] at hpending
        rcases hpending with hb | rfl | ha
        · exact .inl (by simp [hb])
        · exact .inr hdependencies
        · exact .inl (by simp [ha])
      · exact .inr fun dependency hd => List.mem_append_left _ (hfollowed dependency hd)
    · exact .inl (List.mem_append_left _ hl)
  · refine List.nodup_append.2 ⟨h.nodup, Text.nodup_eraseDups _, ?_⟩
    rintro a ha b hb rfl
    exact (mem_fresh_iff.1 hb).2 ha

theorem Turns.sound {n : Nat} {s s' : Search} (h : Turns c n s s') (hs : Sound c names s) :
    Sound c names s' := by
  induction h with
  | none => exact hs
  | turn ht _ ih => exact ih (hs.turn ht)

/-- When nothing is pending any more, nothing is missing either. -/
theorem Sound.isLeast {found : List String} (h : Sound c names ⟨[], found⟩) :
    IsLeast {locations | Closed c names locations} {l | l ∈ found} := by
  refine ⟨closed_iff.2 ⟨h.start, fun l hl => ?_⟩, fun locations hclosed l hl => ?_⟩
  · exact (h.followed l hl).resolve_left List.not_mem_nil
  · exact h.needed locations hclosed l hl

/-! ### The end of the search -/

def dependencies (c : LoaderConfig) : List String :=
  ((c.section? "map").getD []).flatMap fun m => (m.2.members?.getD []).filterMap (·.2.string?)

theorem length_dependencies_le (c : LoaderConfig) : (dependencies c).length ≤ dependencyCount c := by
  unfold dependencies dependencyCount
  induction (c.section? "map").getD [] with
  | nil => simp
  | cons m members ih =>
    have hm := List.length_filterMap_le (fun d : String × Json.Value => d.2.string?)
      (m.2.members?.getD [])
    rw [List.flatMap_cons, List.length_append]
    exact Nat.add_le_add hm ih

theorem mem_dependencies {l dependency : String} (h : dependency ∈ c.dependenciesOf l) :
    dependency ∈ dependencies c := by
  obtain ⟨members, hentry, key, hkey⟩ := mem_dependenciesOf_iff.1 h
  obtain ⟨entries, hs, hget⟩ := Option.bind_eq_some_iff.1 hentry
  rw [dependencies, hs, Option.getD_some, List.mem_flatMap]
  refine ⟨(l, .object members), Entries.get?_mem hget, List.mem_filterMap.2 ⟨_, hkey, rfl⟩⟩

/-- How many locations can still be taken: those that are pending, and the dependencies that are not
found yet. -/
def Search.remaining (c : LoaderConfig) (s : Search) : Nat :=
  s.pending.length + ((dependencies c).toFinset \ s.found.toFinset).card

theorem remaining_turn {s s' : Search} (ht : Turn c s s') :
    s'.remaining c + 1 = s.remaining c := by
  obtain ⟨before, after, found, location⟩ := ht
  have hcard : (fresh c found location).toFinset.card = (fresh c found location).length :=
    List.toFinset_card_of_nodup (Text.nodup_eraseDups _)
  have hsubset : (fresh c found location).toFinset ⊆ (dependencies c).toFinset \ found.toFinset := by
    intro dependency hd
    rw [List.mem_toFinset] at hd
    obtain ⟨hdependency, hnew⟩ := mem_fresh_iff.1 hd
    simpa [hnew] using mem_dependencies hdependency
  have hrest := Finset.card_sdiff_add_card_eq_card hsubset
  rw [hcard, sdiff_sdiff_left, Finset.sup_eq_union, ← List.toFinset_append] at hrest
  simp only [Search.remaining, List.length_append, List.length_cons]
  omega

theorem Turns.length_le {n : Nat} {s s' : Search} (h : Turns c n s s') : n ≤ s.remaining c := by
  induction h with
  | none => exact Nat.zero_le _
  | turn ht _ ih =>
    rw [← remaining_turn ht]
    exact Nat.succ_le_succ ih

theorem remaining_start_le (c : LoaderConfig) (names : List String) :
    (Search.start c names).remaining c ≤
      (names.map (packageLocation c)).eraseDups.length + dependencyCount c := by
  have hcard : ((dependencies c).toFinset \ (Search.start c names).found.toFinset).card ≤
      (dependencies c).length :=
    (Finset.card_le_card Finset.sdiff_subset).trans (List.toFinset_card_le _)
  exact Nat.add_le_add_left (hcard.trans (length_dependencies_le c)) _

/-- With fuel for all locations that can still be taken, the search comes to its end. -/
theorem closeLocations_turns {fuel : Nat} {pending found : List String}
    (h : (⟨pending, found⟩ : Search).remaining c ≤ fuel) :
    ∃ n, Turns c n ⟨pending, found⟩ ⟨[], closeLocations c fuel pending found⟩ := by
  induction fuel generalizing pending found with
  | zero =>
    have hnil : pending = [] := by
      have hsum : pending.length + _ ≤ 0 := h
      exact List.length_eq_zero_iff.1 (by omega)
    subst hnil
    exact ⟨0, .none _⟩
  | succ fuel ih =>
    cases pending with
    | nil => exact ⟨0, .none _⟩
    | cons location pending =>
      have ht : Turn c ⟨location :: pending, found⟩
          ⟨fresh c found location ++ pending, found ++ fresh c found location⟩ :=
        .take [] pending found location
      have hless : (⟨fresh c found location ++ pending, found ++ fresh c found location⟩ :
          Search).remaining c ≤ fuel := by
        have hturn := remaining_turn ht
        omega
      obtain ⟨n, hn⟩ := ih hless
      exact ⟨n + 1, .turn ht hn⟩

/-! ## The locations -/

theorem exists_turns (c : LoaderConfig) (names : List String) : ∃ n found,
    Turns c n (.start c names) ⟨[], found⟩ ∧
      packageLocations c names = found.mergeSort fun a b => decide (a ≤ b) := by
  obtain ⟨n, hn⟩ := closeLocations_turns (remaining_start_le c names)
  exact ⟨n, _, hn, rfl⟩

theorem isLeast_packageLocations (c : LoaderConfig) (names : List String) :
    IsLeast {locations | Closed c names locations} {l | l ∈ packageLocations c names} := by
  obtain ⟨n, found, hn, heq⟩ := exists_turns c names
  have hmem : {l | l ∈ packageLocations c names} = {l | l ∈ found} := by
    ext l
    rw [heq]
    exact List.mem_mergeSort
  rw [hmem]
  exact (hn.sound (sound_start c names)).isLeast

theorem pairwise_packageLocations (c : LoaderConfig) (names : List String) :
    (packageLocations c names).Pairwise (· < ·) := by
  obtain ⟨n, found, hn, heq⟩ := exists_turns c names
  rw [heq]
  exact Text.pairwise_lt_mergeSort (hn.sound (sound_start c names)).nodup

theorem Closed.mono {more : List String} (hsubset : ∀ name ∈ names, name ∈ more)
    {locations : Set String} (h : Closed c more locations) : Closed c names locations where
  mapped name hname := h.mapped name (hsubset name hname)
  unmapped name hname := h.unmapped name (hsubset name hname)
  dependencies := h.dependencies

theorem packageLocations_mono {more : List String} (h : ∀ name ∈ names, name ∈ more) :
    ∀ l ∈ packageLocations c names, l ∈ packageLocations c more :=
  (isLeast_packageLocations c names).2 ((isLeast_packageLocations c more).1.mono h)

theorem mem_packageLocations_append (c : LoaderConfig) (names more : List String) (l : String) :
    l ∈ packageLocations c (names ++ more) ↔
      l ∈ packageLocations c names ∨ l ∈ packageLocations c more := by
  constructor
  · -- the locations of both lists together are closed for all names
    have hboth : Closed c (names ++ more)
        {l | l ∈ packageLocations c names ∨ l ∈ packageLocations c more} := by
      obtain ⟨hstart, hnext⟩ := closed_iff.1 (isLeast_packageLocations c names).1
      obtain ⟨hstart', hnext'⟩ := closed_iff.1 (isLeast_packageLocations c more).1
      refine closed_iff.2 ⟨fun name hname => ?_, fun l hl dependency hd => ?_⟩
      · exact (List.mem_append.1 hname).imp (hstart name) (hstart' name)
      · exact hl.imp (hnext l · dependency hd) (hnext' l · dependency hd)
    exact fun hl => (isLeast_packageLocations c (names ++ more)).2 hboth hl
  · rintro (hl | hl)
    · exact packageLocations_mono (fun _ => List.mem_append_left _) l hl
    · exact packageLocations_mono (fun _ => List.mem_append_right _) l hl

/-- The locations of some packages, for whatever `map` holds. Every search comes to an end, in
whatever order it takes the pending locations, after no more turns than there are locations to begin
with and dependencies in `map`, and the one that is computed is such a search. The result is the
least closed set, as a sorted list. So it depends on the set of packages only, grows with it, and is
the union for two lists of packages. -/
theorem packageLocations_least_closed (c : LoaderConfig) (names : List String) :
    ((∀ n s, Turns c n (.start c names) s →
        n ≤ (names.map (packageLocation c)).eraseDups.length + dependencyCount c ∧
          (s.pending = [] → s.found.Perm (packageLocations c names)) ∧
          (s.pending ≠ [] → ∃ s', Turn c s s')) ∧
      ∃ n found, Turns c n (.start c names) ⟨[], found⟩ ∧
        packageLocations c names = found.mergeSort fun a b => decide (a ≤ b)) ∧
      IsLeast {locations | Closed c names locations} {l | l ∈ packageLocations c names} ∧
      (packageLocations c names).Pairwise (· < ·) ∧
      (∀ names', (∀ name, name ∈ names ↔ name ∈ names') →
        packageLocations c names = packageLocations c names') ∧
      (∀ names', (∀ name ∈ names, name ∈ names') →
        ∀ l ∈ packageLocations c names, l ∈ packageLocations c names') ∧
      ∀ names' l, l ∈ packageLocations c (names ++ names') ↔
        l ∈ packageLocations c names ∨ l ∈ packageLocations c names' := by
  have hleast := isLeast_packageLocations c names
  have hsorted := pairwise_packageLocations c names
  refine ⟨⟨fun n s hn => ⟨hn.length_le.trans (remaining_start_le c names), ?_, ?_⟩,
    exists_turns c names⟩, hleast, hsorted, fun names' hsame => ?_,
    fun names' => packageLocations_mono, mem_packageLocations_append c names⟩
  · obtain ⟨pending, found⟩ := s
    rintro rfl
    have hsound := hn.sound (sound_start c names)
    have hnodup : (packageLocations c names).Nodup := by
      refine hsorted.imp ?_
      rintro a _ hlt rfl
      exact String.lt_irrefl a hlt
    exact (List.perm_ext_iff_of_nodup hsound.nodup hnodup).2
      (Set.ext_iff.1 (hsound.isLeast.unique hleast))
  · obtain ⟨pending, found⟩ := s
    intro hne
    obtain ⟨location, pending, rfl⟩ := List.exists_cons_of_ne_nil hne
    exact ⟨_, .take [] pending found location⟩
  · exact Text.eq_of_pairwise_lt hsorted (pairwise_packageLocations c names') fun l =>
      ⟨packageLocations_mono (fun name => (hsame name).1) l,
        packageLocations_mono (fun name => (hsame name).2) l⟩

/-- Two packages that depend on each other. -/
def cyclicConfig : LoaderConfig :=
  ⟨[("map", .object [("a", .string "npm:a@1"), ("npm:a@1", .object [("b", .string "npm:b@1")]),
    ("npm:b@1", .object [("a", .string "npm:a@1"), ("c", .string "npm:c@1")])])]⟩

example : packageLocations cyclicConfig ["a"] = ["npm:a@1", "npm:b@1", "npm:c@1"] := by
  cbv

end BundleLedger.Selection
