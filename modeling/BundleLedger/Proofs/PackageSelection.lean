import BundleLedger.Proofs.PackageLocations
import BundleLedger.Proofs.SelectedNames
import Mathlib.Data.Finset.Lattice.Fold

/-!
# What kept packages select

A module of a package is named by the location of the package with something behind it that ends the
location: a path, a plugin, or the ending of the main file (`IsModuleOf`). The selection looks at the
beginning of a name only, so it also takes modules of other packages, where a location goes on
without an end, as a version does that begins with another version.

When does it take modules of kept packages only? Given the locations of all packages that there are,
it is enough to compare locations: one that a kept location can be mistaken for (`Meets`) has to be
a kept one itself. It is also necessary, as long as every module of the packages may be traced.

Results:

* `mem_packages`: the records that are selected.
* `IsModuleOf.trans`: a module of what lies in a package is a module of the package.
* `packages_whole_iff`: when the selection takes modules of kept packages only.
-/
namespace BundleLedger.Selection

/-! ## Modules of a package -/

/-- What ends the location of a package in a name. -/
def boundaries : List (List Char) := [['/'], ['!'], ".js".toList]

/-- What stands behind the location of a package in the name of one of its modules: nothing, or
something that ends the location. -/
def IsBoundary (rest : List Char) : Prop := rest = [] ∨ ∃ mark ∈ boundaries, mark <+: rest

/-- Whether a module belongs to the package at a location. -/
def IsModuleOf (location name : String) : Prop :=
  ∃ rest, IsBoundary rest ∧ name.toList = location.toList ++ rest

/-- The name of some module of the package at `p` begins with `l`. -/
def Meets (l p : String) : Prop := ∃ rest, IsBoundary rest ∧ l.toList <+: p.toList ++ rest

instance (rest : List Char) : Decidable (IsBoundary rest) := inferInstanceAs (Decidable (_ ∨ _))

theorem isModuleOf_iff {location name : String} : IsModuleOf location name ↔
    location.toList <+: name.toList ∧ IsBoundary (name.toList.drop location.toList.length) := by
  constructor
  · rintro ⟨rest, hrest, hname⟩
    rw [hname, List.drop_left]
    exact ⟨List.prefix_append _ _, hrest⟩
  · rintro ⟨⟨rest, hname⟩, hrest⟩
    rw [← hname, List.drop_left] at hrest
    exact ⟨rest, hrest, hname.symm⟩

instance (location name : String) : Decidable (IsModuleOf location name) :=
  decidable_of_iff _ isModuleOf_iff.symm

theorem IsBoundary.append {rest more : List Char} (h : IsBoundary rest) (hmore : IsBoundary more) :
    IsBoundary (rest ++ more) := by
  rcases h with rfl | ⟨mark, hmark, hbegins⟩
  · exact hmore
  · exact .inr ⟨mark, hmark, hbegins.trans (List.prefix_append _ _)⟩

theorem IsModuleOf.trans {l p name : String} (hl : IsModuleOf l p) (hp : IsModuleOf p name) :
    IsModuleOf l name := by
  obtain ⟨rest, hrest, hname⟩ := hp
  obtain ⟨inner, hinner, hp⟩ := hl
  exact ⟨inner ++ rest, hinner.append hrest, by rw [hname, hp, List.append_assoc]⟩

/-- A boundary begins with a slash, a plugin mark or a point. -/
theorem IsBoundary.head {c : Char} {rest : List Char} (h : IsBoundary (c :: rest)) :
    c ∈ ['/', '!', '.'] := by
  rcases h with h | ⟨mark, hmark, hbegins⟩
  · cases h
  · have hheads : ∀ mark ∈ boundaries, ∃ d ∈ ['/', '!', '.'], mark = d :: mark.tail := by
      simp [boundaries]
    obtain ⟨d, hd, he⟩ := hheads mark hmark
    rw [he, List.cons_prefix_cons] at hbegins
    rwa [hbegins.1] at hd

/-- No boundary begins inside of one. -/
theorem not_isBoundary_of_inside {mark before after : List Char} {c : Char} (hmark : mark ∈ boundaries)
    (hne : before ≠ []) (h : mark = before ++ c :: after) (rest : List Char) :
    ¬ IsBoundary (c :: rest) := by
  have hinside : ∀ mark ∈ boundaries, ∀ d ∈ mark.tail, d ∉ ['/', '!', '.'] := by
    simp [boundaries]
  obtain ⟨d, before, rfl⟩ := List.exists_cons_of_ne_nil hne
  intro hb
  refine hinside mark hmark c ?_ hb.head
  simp [h]

/-- Where a boundary follows, what stands in front of it is one as well. -/
theorem IsBoundary.of_append {rest more : List Char} (h : IsBoundary (rest ++ more))
    (hmore : IsBoundary more) : IsBoundary rest := by
  rcases h with h | ⟨mark, hmark, hbegins⟩
  · exact .inl (List.append_eq_nil_iff.1 h).1
  · rcases List.prefix_or_prefix_of_prefix hbegins (List.prefix_append rest more) with hin | hout
    · exact .inr ⟨mark, hmark, hin⟩
    · by_cases hnil : rest = []
      · exact .inl hnil
      · obtain ⟨after, rfl⟩ := hout
        rw [List.prefix_append_right_inj] at hbegins
        cases after with
        | nil => exact .inr ⟨rest ++ [], hmark, by simp⟩
        | cons d after =>
          obtain ⟨tail, rfl⟩ := hbegins
          exact absurd hmore (not_isBoundary_of_inside hmark hnil rfl _)

/-! ## What is selected -/

variable {c : LoaderConfig} {names : List String}

theorem mem_packages {graph : Graph} {e : String × Record} : e ∈ packages c names graph ↔
    e ∈ graph ∧ ∃ l ∈ packageLocations c names, l.toList <+: e.2.name.toList := by
  simp only [packages, keepNames, List.mem_filter, List.any_eq_true, List.isPrefixOf_iff_prefix]

/-- Every package that a kept location can be mistaken for is kept itself. -/
def Unmistaken (c : LoaderConfig) (names : List String) (known : Set String) : Prop :=
  ∀ p ∈ known, (∃ l ∈ packageLocations c names, Meets l p) →
    ∃ l ∈ packageLocations c names, IsModuleOf l p

/-- From a graph of modules of some packages, only modules of kept ones are selected. -/
def SelectsWhole (c : LoaderConfig) (names : List String) (known : Set String) : Prop :=
  ∀ graph : Graph, (∀ e ∈ graph, ∃ p ∈ known, IsModuleOf p e.2.name) →
    ∀ e ∈ packages c names graph, ∃ l ∈ packageLocations c names, IsModuleOf l e.2.name

variable {known : Set String}

theorem Unmistaken.selectsWhole (h : Unmistaken c names known) : SelectsWhole c names known := by
  intro graph hgraph e he
  obtain ⟨hmem, l, hl, hbegins⟩ := mem_packages.1 he
  obtain ⟨p, hp, rest, hrest, hname⟩ := hgraph e hmem
  obtain ⟨l', hl', hmodule⟩ := h p hp ⟨l, hl, rest, hrest, hname ▸ hbegins⟩
  exact ⟨l', hl', hmodule.trans ⟨rest, hrest, hname⟩⟩

/-- A single module that is selected belongs to a kept package. -/
theorem SelectsWhole.of_prefix (h : SelectsWhole c names known) {p l : String} {rest : List Char}
    (hp : p ∈ known) (hrest : IsBoundary rest) (hl : l ∈ packageLocations c names)
    (hbegins : l.toList <+: p.toList ++ rest) :
    ∃ l' ∈ packageLocations c names, ∃ rest', IsBoundary rest' ∧
      p.toList ++ rest = l'.toList ++ rest' := by
  have hname : (String.ofList (p.toList ++ rest)).toList = p.toList ++ rest := String.toList_ofList
  have hwhole := h [("", ⟨String.ofList (p.toList ++ rest), []⟩)]
    (fun e he => ⟨p, hp, rest, hrest, by rw [List.mem_singleton.1 he, hname]⟩) _
    (mem_packages.2 ⟨List.mem_singleton_self _, l, hl, by rw [hname]; exact hbegins⟩)
  obtain ⟨l', hl', rest', hrest', he⟩ := hwhole
  exact ⟨l', hl', rest', hrest', by rw [← he, hname]⟩

/-- A text that is longer than all kept locations and holds nothing that could end one. -/
theorem exists_padding (c : LoaderConfig) (names : List String) :
    ∃ n, ∀ l ∈ packageLocations c names, l.toList.length < n := by
  refine ⟨(packageLocations c names).toFinset.sup (·.toList.length) + 1, fun l hl => ?_⟩
  exact Nat.lt_succ_of_le (Finset.le_sup (f := fun l : String => l.toList.length)
    (List.mem_toFinset.2 hl))

theorem not_isBoundary_padding {n : Nat} {before rest : List Char}
    (h : List.replicate n 'x' = before ++ rest) (hne : rest ≠ []) : ¬ IsBoundary rest := by
  obtain ⟨d, rest, rfl⟩ := List.exists_cons_of_ne_nil hne
  have hd : d = 'x' := List.eq_of_mem_replicate (n := n) (by rw [h]; simp)
  intro hb
  have hhead := hb.head
  rw [hd] at hhead
  revert hhead
  decide

/-- What ends a text in front of a long padding ends it before the padding begins. -/
theorem ends_before_padding {n : Nat} {shown text rest : List Char} (hrest : IsBoundary rest)
    (hlong : text.length < n) (h : shown ++ List.replicate n 'x' = text ++ rest) :
    ∃ d after, shown = text ++ d :: after ∧ rest = d :: (after ++ List.replicate n 'x') := by
  have hpadding : ∀ before, List.replicate n 'x' = before ++ rest → rest = [] := by
    intro before hb
    by_contra hne
    exact not_isBoundary_padding hb hne hrest
  rcases List.append_eq_append_iff.1 h with ⟨w, rfl, hpad⟩ | ⟨w, rfl, hpad⟩
  · -- otherwise all of the padding belongs to the text, which is too short for that
    rw [hpadding w hpad, List.append_nil] at hpad
    rw [← hpad, List.length_append, List.length_replicate] at hlong
    omega
  · cases w with
    | nil =>
      rw [hpadding [] hpad.symm] at hpad
      simp at hpad
      omega
    | cons d after => exact ⟨d, after, rfl, hpad⟩

/-- A kept location that `p` can be mistaken for makes a module of `p` with this location in its name
be selected. So `p` is kept, or a shorter kept location can be mistaken for it. -/
theorem SelectsWhole.shorten (h : SelectsWhole c names known) {p l : String} (hp : p ∈ known)
    (hl : l ∈ packageLocations c names) (hmeets : Meets l p) :
    ∃ l' ∈ packageLocations c names, IsModuleOf l' p ∨
      Meets l' p ∧ l'.toList.length < l.toList.length := by
  obtain ⟨rest, hrest, hbegins⟩ := hmeets
  rcases List.prefix_or_prefix_of_prefix hbegins (List.prefix_append p.toList rest) with hlp | hpl
  · rw [← List.append_nil p.toList] at hlp
    obtain ⟨l', hl', rest', hrest', he⟩ := h.of_prefix hp (.inl rfl) hl hlp
    exact ⟨l', hl', .inl ⟨rest', hrest', by simpa using he⟩⟩
  obtain ⟨inner, hinner⟩ := hpl
  rw [← hinner, List.prefix_append_right_inj] at hbegins
  rcases hrest with rfl | ⟨mark, hmark, hstart⟩
  · rw [List.prefix_nil.1 hbegins, List.append_nil] at hinner
    exact ⟨l, hl, .inl ⟨[], .inl rfl, by rw [hinner, List.append_nil]⟩⟩
  -- behind `p` the name shows all of `l` and a whole mark, and then nothing that ends a location
  obtain ⟨shown, hinnerShown, hmarkShown, hshown⟩ : ∃ shown, inner <+: shown ∧ mark <+: shown ∧
      (shown = inner ∨ shown = mark) := by
    rcases List.prefix_or_prefix_of_prefix hbegins hstart with hlonger | hlonger
    · exact ⟨mark, hlonger, List.prefix_rfl, .inr rfl⟩
    · exact ⟨inner, List.prefix_rfl, hlonger, .inl rfl⟩
  obtain ⟨n, hn⟩ := exists_padding c names
  have hboundary : IsBoundary (shown ++ List.replicate n 'x') :=
    .inr ⟨mark, hmark, hmarkShown.trans (List.prefix_append _ _)⟩
  have hselected : l.toList <+: p.toList ++ (shown ++ List.replicate n 'x') := by
    rw [← hinner, List.prefix_append_right_inj]
    exact hinnerShown.trans (List.prefix_append _ _)
  obtain ⟨l', hl', rest', hrest', he⟩ := h.of_prefix hp hboundary hl hselected
  refine ⟨l', hl', ?_⟩
  rcases List.append_eq_append_iff.1 he with ⟨v, hv, hsplit⟩ | ⟨u, hu, hsplit⟩
  · have hlong := hn l' hl'
    rw [hv, List.length_append] at hlong
    obtain ⟨d, after, hv', hrest⟩ := ends_before_padding hrest' (by omega) hsplit
    by_cases hnil : v = []
    · exact .inl ⟨[], .inl rfl, by rw [hv, hnil, List.append_nil, List.append_nil]⟩
    · right
      rcases hshown with rfl | rfl
      · refine ⟨⟨rest, .inr ⟨mark, hmark, hstart⟩, ?_⟩, ?_⟩
        · rw [hv, List.prefix_append_right_inj]
          exact (hv' ▸ List.prefix_append v (d :: after)).trans hbegins
        · rw [hv, ← hinner, hv']
          simp
      · rw [hrest] at hrest'
        exact absurd hrest' (not_isBoundary_of_inside hmark hnil hv' _)
  · rw [hsplit] at hrest'
    exact .inl ⟨u, hrest'.of_append hboundary, hu⟩

theorem SelectsWhole.unmistaken (h : SelectsWhole c names known) : Unmistaken c names known := by
  rintro p hp ⟨l, hl, hmeets⟩
  induction hlength : l.toList.length using Nat.strongRecOn generalizing l with
  | ind length ih =>
    obtain ⟨l', hl', hmodule | ⟨hmeets', hshorter⟩⟩ := h.shorten hp hl hmeets
    · exact ⟨l', hl', hmodule⟩
    · exact ih _ (hlength ▸ hshorter) l' hl' hmeets' rfl

/-- The selection, for all configurations, packages and graphs. It keeps the records whose name begins
with a location that every closed set has, as they are and where they are. From modules of known
packages it takes modules of kept packages only, whatever is traced, if and only if every known
package that a kept location can be mistaken for is kept itself. -/
theorem packages_whole_iff (c : LoaderConfig) (names : List String) :
    (∀ graph, (packages c names graph).Sublist graph ∧ ∀ e, e ∈ packages c names graph ↔
        e ∈ graph ∧ ∃ l, (∀ locations, Closed c names locations → l ∈ locations) ∧
          l.toList <+: e.2.name.toList) ∧
      ∀ known, SelectsWhole c names known ↔ Unmistaken c names known := by
  have hleast := isLeast_packageLocations c names
  have hlocation : ∀ l, l ∈ packageLocations c names ↔
      ∀ locations, Closed c names locations → l ∈ locations := fun l =>
    ⟨fun hl locations h => hleast.2 h hl, fun h => h _ hleast.1⟩
  refine ⟨fun graph => ⟨List.filter_sublist, fun e => ?_⟩, fun known =>
    ⟨SelectsWhole.unmistaken, Unmistaken.selectsWhole⟩⟩
  simp only [mem_packages, hlocation]

/-! ## A version that begins with another version -/

def versionConfig : LoaderConfig :=
  ⟨[("map", .object [("lodash", .string "npm:lodash@4.17.4")])]⟩

theorem packageLocations_version : packageLocations versionConfig ["lodash"] = ["npm:lodash@4.17.4"] := by
  cbv

/-- Next to another package all is well; next to a later version it is not. -/
theorem packages_whole_iff_version :
    SelectsWhole versionConfig ["lodash"] {"npm:lodash@4.17.4", "npm:react@15.6.1"} ∧
      ¬ SelectsWhole versionConfig ["lodash"] {"npm:lodash@4.17.4", "npm:lodash@4.17.40"} := by
  obtain ⟨-, hwhole⟩ := packages_whole_iff versionConfig ["lodash"]
  simp only [hwhole, Unmistaken, packageLocations_version, List.mem_singleton, exists_eq_left]
  constructor
  · rintro p (rfl | rfl) ⟨rest, -, hbegins⟩
    · decide
    · simp [List.cons_prefix_cons] at hbegins
  · intro h
    have hkept := h "npm:lodash@4.17.40" (.inr rfl) ⟨[], .inl rfl, by decide⟩
    revert hkept
    decide

def versionGraph : Graph :=
  .ofRecords [⟨"npm:lodash@4.17.4/index.js", []⟩, ⟨"npm:lodash@4.17.40/index.js", []⟩]

/-- The kept version is 4.17.4, and a module of 4.17.40 is selected. -/
theorem later_version_selected :
    ¬ ∀ (c : LoaderConfig) (names : List String) (graph : Graph), ∀ e ∈ packages c names graph,
      ∃ l ∈ packageLocations c names, IsModuleOf l e.2.name := by
  intro h
  have hmem : (("npm:lodash@4.17.40/index.js", ⟨"npm:lodash@4.17.40/index.js", []⟩) : String × Record) ∈
      packages versionConfig ["lodash"] versionGraph := by
    rw [mem_packages, packageLocations_version]
    exact ⟨.tail _ (.head _), _, List.mem_singleton_self _, by decide⟩
  obtain ⟨l, hl, hmodule⟩ := h _ _ _ _ hmem
  rw [packageLocations_version, List.mem_singleton] at hl
  rw [hl] at hmodule
  revert hmodule
  decide

end BundleLedger.Selection
