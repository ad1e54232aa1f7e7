import BundleLedger.Proofs.Discovery.Descent
import BundleLedger.Proofs.Discovery.PlainPattern
import Mathlib.Data.List.Induction
import Mathlib.Data.List.Nodup

/-!
# What a deep search finds

The last two steps of a search stand for any number of directories and an entry file. From a directory
they lead to each entry file below it, once, whatever lies how deep: a directory is searched by visiting
what is in it, and what is visited is searched in turn if it is a directory, and kept if it has the name
of an entry file. Only where a path gets too long for the system the search does not go on.

A disk is a list of places, so what lies below a directory is said by the places that begin with its
own (`entriesBelow`), and the recursion is on how many of them there are.

Results:

* `Tidy.node?_of_append`: what is above something is a directory.
* `stepsFrom_deep` and `visit_deep`: one directory of the search.
* `finds_deep`: the whole search.
-/
namespace BundleLedger

open FilePath Discovery

namespace Disk

/-! ## Tidy disks -/

/-- A disk as the system keeps it: nothing is listed twice, what is above something is a directory, and
everything has a name. -/
structure Tidy (d : Disk) : Prop where
  nodup : (d.nodes.map (·.1)).Nodup
  ne_root : ∀ n ∈ d.nodes, n.1 ≠ []
  above : ∀ n ∈ d.nodes, d.node? n.1.dropLast = some .directory
  names : ∀ n ∈ d.nodes, ∀ name ∈ n.1, IsFileName name

instance (d : Disk) : Decidable d.Tidy :=
  decidable_of_iff ((d.nodes.map (·.1)).Nodup ∧ (∀ n ∈ d.nodes, n.1 ≠ []) ∧
    (∀ n ∈ d.nodes, d.node? n.1.dropLast = some .directory) ∧
      ∀ n ∈ d.nodes, ∀ name ∈ n.1, IsFileName name)
    ⟨fun ⟨hd, hr, ha, hn⟩ => ⟨hd, hr, ha, hn⟩, fun ⟨hd, hr, ha, hn⟩ => ⟨hd, hr, ha, hn⟩⟩

variable {d : Disk} {place : Place} {node : Node}

theorem Tidy.node?_eq_some_iff (h : d.Tidy) (hplace : place ≠ []) :
    d.node? place = some node ↔ (place, node) ∈ d.nodes := by
  rw [node?, if_neg hplace]
  have hnodup := h.nodup
  generalize d.nodes = nodes at hnodup
  induction nodes with
  | nil => simp
  | cons n nodes ih =>
    obtain ⟨p, m⟩ := n
    rw [List.map_cons, List.nodup_cons] at hnodup
    by_cases hp : p = place
    · subst hp
      have hout : (p, node) ∉ nodes := fun hmem =>
        hnodup.1 (List.mem_map.2 ⟨(p, node), hmem, rfl⟩)
      simp [hout, eq_comm]
    · have hcons : (place, node) ∈ (p, m) :: nodes ↔ (place, node) ∈ nodes := by simp [Ne.symm hp]
      rw [List.find?_cons_of_neg (by simpa using hp), hcons]
      exact ih hnodup.2

/-- What is above something is a directory. -/
theorem Tidy.node?_of_append (h : d.Tidy) {below : Place} (hbelow : below ≠ [])
    (hmem : (place ++ below, node) ∈ d.nodes) : d.node? place = some .directory := by
  induction below using List.reverseRecOn generalizing node with
  | nil => exact absurd rfl hbelow
  | append_singleton below name ih =>
    have habove := h.above _ hmem
    rw [← List.append_assoc, List.dropLast_concat] at habove
    by_cases hnil : below = []
    · rwa [hnil, List.append_nil] at habove
    · have hplace : place ++ below ≠ [] := List.append_ne_nil_of_right_ne_nil _ hnil
      exact ih hnil ((h.node?_eq_some_iff hplace).1 habove)

theorem Tidy.isFileName (h : d.Tidy) {below : Place} (hmem : (place ++ below, node) ∈ d.nodes) :
    ∀ name ∈ below, IsFileName name := fun name hname =>
  h.names _ hmem name (List.mem_append_right _ hname)

/-! ## What is in a directory -/

theorem mem_names {name : List Char} :
    name ∈ d.names place ↔ ∃ node, (place ++ [name], node) ∈ d.nodes := by
  rw [names, List.mem_filterMap]
  constructor
  · rintro ⟨⟨p, node⟩, hmem, hmatch⟩
    dsimp only at hmatch
    split at hmatch
    · rename_i hrest
      cases hmatch
      exact ⟨node, List.isPrefixOf?_eq_some_iff_append_eq.1 hrest ▸ hmem⟩
    · cases hmatch
  · rintro ⟨node, hmem⟩
    refine ⟨_, hmem, ?_⟩
    dsimp only
    rw [List.isPrefixOf?_eq_some_iff_append_eq.2 rfl]

/-- In a directory a name stands once. -/
theorem Tidy.nodup_names (h : d.Tidy) (place : Place) : (d.names place).Nodup := by
  have hplaces : d.nodes.Pairwise fun n n' => n.1 ≠ n'.1 := List.pairwise_map.1 h.nodup
  refine hplaces.filterMap _ fun n n' hne name hname name' hname' hsame => ?_
  obtain ⟨p, node⟩ := n
  obtain ⟨p', node'⟩ := n'
  dsimp only at hne hname hname'
  split at hname
  · rename_i hrest
    split at hname'
    · rename_i hrest'
      cases hname
      cases hname'
      refine hne ?_
      rw [← List.isPrefixOf?_eq_some_iff_append_eq.1 hrest,
        ← List.isPrefixOf?_eq_some_iff_append_eq.1 hrest', hsame]
    · cases hname'
  · cases hname

/-- How many places lie below a place. -/
def countBelow (d : Disk) (place : Place) : Nat :=
  d.nodes.countP fun n => place.isPrefixOf n.1 && n.1 != place

theorem countBelow_child {name : List Char} (h : name ∈ d.names place) :
    d.countBelow (place ++ [name]) < d.countBelow place := by
  obtain ⟨node, hmem⟩ := mem_names.1 h
  obtain ⟨before, after, hsplit⟩ := List.append_of_mem hmem
  have hle : ∀ nodes : List (Place × Node),
      nodes.countP (fun n => (place ++ [name]).isPrefixOf n.1 && n.1 != place ++ [name]) ≤
        nodes.countP (fun n => place.isPrefixOf n.1 && n.1 != place) := by
    intro nodes
    refine List.countP_mono_left fun n _ hn => ?_
    simp only [Bool.and_eq_true, List.isPrefixOf_iff_prefix, bne_iff_ne] at hn ⊢
    obtain ⟨⟨rest, hrest⟩, -⟩ := hn
    refine ⟨⟨name :: rest, by simp [← hrest]⟩, ?_⟩
    rintro hsame
    have hlength := congrArg List.length hrest
    simp [hsame] at hlength
  have hbefore := hle before
  have hafter := hle after
  rw [countBelow, countBelow, hsplit]
  simp only [List.countP_append, List.countP_cons]
  simp only [bne_self_eq_false, Bool.and_false, Bool.false_eq_true, if_false]
  have hself : (place.isPrefixOf (place ++ [name]) && (place ++ [name] != place)) = true := by
    simp
  rw [if_pos hself]
  omega

end Disk

namespace Discovery

variable {d : Disk} {path : List Char} {place : Place}

/-! ## Entry files -/

/-- Whether an entry file lies below a place, at the end of these names. -/
def IsEntry (d : Disk) (place rel : Place) : Prop :=
  rel.getLast? = some ModuleName.entryFile.toList ∧ ∃ node, (place ++ rel, node) ∈ d.nodes

/-- The entry files below a place, each by the names that lead to it. -/
def entriesBelow (d : Disk) (place : Place) : List Place :=
  d.nodes.filterMap fun n =>
    (place.isPrefixOf? n.1).filter (·.getLast? == some ModuleName.entryFile.toList)

theorem mem_entriesBelow {rel : Place} : rel ∈ entriesBelow d place ↔ IsEntry d place rel := by
  simp only [entriesBelow, List.mem_filterMap, Option.filter_eq_some_iff, beq_iff_eq,
    List.isPrefixOf?_eq_some_iff_append_eq, IsEntry]
  constructor
  · rintro ⟨n, hmem, hrel, hlast⟩
    exact ⟨hlast, n.2, hrel ▸ hmem⟩
  · rintro ⟨hlast, node, hmem⟩
    exact ⟨_, hmem, rfl, hlast⟩

theorem IsEntry.ne_nil {rel : Place} (h : IsEntry d place rel) : rel ≠ [] := by
  rintro rfl
  cases h.1

theorem IsEntry.isFileName {rel : Place} (hd : d.Tidy) (h : IsEntry d place rel) :
    ∀ name ∈ rel, IsFileName name := by
  obtain ⟨-, node, hmem⟩ := h
  exact hd.isFileName hmem

/-! ## One directory -/

theorem literal?_deepStep : deepStep.literal? = none := rfl

theorem isRecursive_deepStep : deepStep.isRecursive = true := rfl

theorem isRecursive_entryStep : entryStep.isRecursive = false := Pattern.isRecursive_map_char _

theorem stepsFrom_deep (h : d.isDirectory path = true) (fuel : Nat) :
    stepsFrom d (fuel + 1) [deepStep, entryStep] path =
      (childNames d path).flatMap fun name => visit d fuel [deepStep, entryStep] (child path name) := by
  have hdots : deepStep.head? ≠ some (.char '.') := by decide
  rw [stepsFrom, literal?_deepStep]
  simp only [h, if_true, if_neg hdots, List.flatMap_nil, List.append_nil]

/-- What is visited is searched if it is a directory, and kept if it is an entry file. -/
theorem visit_deep (fuel : Nat) (path : List Char) : visit d (fuel + 2) [deepStep, entryStep] path =
    (if d.isDirectory path then stepsFrom d (fuel + 1) [deepStep, entryStep] path else []) ++
      if fileName? path = some ModuleName.entryFile.toList then [path] else [] := by
  have hcollapsed : collapsed [deepStep, entryStep] = [deepStep, entryStep] := rfl
  have hlast : visit d (fuel + 1) [entryStep] path =
      if fileName? path = some ModuleName.entryFile.toList then [path] else [] := by
    rw [visit]
    simp only [collapsed, isRecursive_entryStep, Bool.false_eq_true, if_false]
    cases fileName? path with
    | none => simp
    | some name => by_cases hname : name = ModuleName.entryFile.toList <;>
        simp [hname, Pattern.isMatch_map_char, entryStep]
  rw [visit, hcollapsed]
  simp only [isRecursive_deepStep, if_true, hlast]
  rfl

/-! ## What is found -/

/-- The paths are those of certain names below a path, each once. -/
def Finds (path : List Char) (P : Place → Prop) (found : List (List Char)) : Prop :=
  ∃ rels : List Place, rels.Nodup ∧ (∀ rel, rel ∈ rels ↔ P rel) ∧ found = rels.map (descend path)

section Finds

variable {P Q : Place → Prop} {found more : List (List Char)} {name : List Char}

theorem Finds.congr (h : Finds path P found) (heq : ∀ rel, P rel ↔ Q rel) : Finds path Q found := by
  obtain ⟨rels, hnodup, hmem, hfound⟩ := h
  exact ⟨rels, hnodup, fun rel => (hmem rel).trans (heq rel), hfound⟩

theorem Finds.nil (h : ∀ rel, ¬ P rel) : Finds path P [] :=
  ⟨[], List.nodup_nil, fun rel => by simp [h rel], rfl⟩

theorem Finds.append (h : Finds path P found) (h' : Finds path Q more)
    (hdisjoint : ∀ rel, P rel → ¬ Q rel) : Finds path (fun rel => P rel ∨ Q rel) (found ++ more) := by
  obtain ⟨rels, hnodup, hmem, rfl⟩ := h
  obtain ⟨rels', hnodup', hmem', rfl⟩ := h'
  refine ⟨rels ++ rels', ?_, fun rel => ?_, (List.map_append).symm⟩
  · refine List.nodup_append.2 ⟨hnodup, hnodup', fun rel hrel rel' hrel' hsame => ?_⟩
    exact hdisjoint rel ((hmem rel).1 hrel) ((hmem' rel).1 (hsame ▸ hrel'))
  · rw [List.mem_append, hmem, hmem']

/-- What is found below a name is found below the path, behind the name. -/
theorem Finds.cons (h : Finds (child path name) P found) :
    Finds path (fun rel => ∃ rest, rel = name :: rest ∧ P rest) found := by
  obtain ⟨rels, hnodup, hmem, rfl⟩ := h
  refine ⟨rels.map (name :: ·), hnodup.map (List.cons_injective), fun rel => ?_, ?_⟩
  · simp only [List.mem_map, hmem]
    exact exists_congr fun rest => by rw [and_comm, eq_comm]
  · rw [List.map_map]
    rfl

theorem Finds.single (path name : List Char) : Finds path (· = [name]) [child path name] :=
  ⟨[[name]], List.nodup_singleton _, fun _ => List.mem_singleton, rfl⟩

theorem Finds.flatMap {names : List (List Char)} {f : List Char → List (List Char)}
    (hnodup : names.Nodup) (h : ∀ name ∈ names, Finds path (fun rel => rel.head? = some name ∧ P rel) (f name)) :
    Finds path (fun rel => (∃ name ∈ names, rel.head? = some name) ∧ P rel) (names.flatMap f) := by
  induction names with
  | nil => exact .nil (by simp)
  | cons name names ih =>
    rw [List.nodup_cons] at hnodup
    rw [List.forall_mem_cons] at h
    rw [List.flatMap_cons]
    refine (h.1.append (ih hnodup.2 h.2) ?_).congr fun rel => ?_
    · rintro rel ⟨hname, -⟩ ⟨⟨name', hmem, hname'⟩, -⟩
      rw [hname, Option.some.injEq] at hname'
      exact hnodup.1 (hname' ▸ hmem)
    · simp only [List.exists_mem_cons_iff, or_and_right]

end Finds

/-- Whether a search from a path that leads to a place comes to an entry file: the system has to take
the path of the directory that holds it. -/
def Reached (d : Disk) (path : List Char) (place rel : Place) : Prop :=
  IsEntry d place rel ∧ Text.byteLength (descend path rel.dropLast) ≤ Disk.pathLimit

theorem isDirectory_of_resolve (h : d.resolve path = .ok place) (hdir : d.node? place = some .directory) :
    d.isDirectory path = true := by
  simp [Disk.isDirectory, h, hdir]

theorem resolve_of_isDirectory (h : d.isDirectory path = true) : ∃ place, d.resolve path = .ok place ∧
    d.node? place = some .directory := by
  unfold Disk.isDirectory at h
  split at h
  · rename_i place hplace
    exact ⟨place, hplace, by simpa using h⟩
  · cases h

/-- What is reached by a name lies deeper, or is what has the name. -/
theorem reached_iff (hpath : d.resolve path = .ok place) {name : List Char}
    (hname : name ∈ d.names place) {rel : Place} : rel.head? = some name ∧ Reached d path place rel ↔
    (∃ rest, rel = name :: rest ∧ Reached d (child path name) (place ++ [name]) rest) ∨
      name = ModuleName.entryFile.toList ∧ rel = [name] := by
  obtain ⟨-, -, hlimit⟩ := (Disk.resolve_eq_ok_iff.1 hpath).1
  constructor
  · rintro ⟨hhead, ⟨hlast, node, hmem⟩, hshort⟩
    obtain ⟨rest, rfl⟩ := List.head?_eq_some_iff.1 hhead
    by_cases hrest : rest = []
    · subst hrest
      exact .inr ⟨by simpa using hlast, rfl⟩
    · refine .inl ⟨rest, rfl, ⟨?_, node, by simpa using hmem⟩, ?_⟩
      · rwa [List.getLast?_cons_of_ne_nil hrest] at hlast
      · rwa [List.dropLast_cons_of_ne_nil hrest] at hshort
  · rintro (⟨rest, rfl, hbelow, hshort⟩ | ⟨hentry, rfl⟩)
    · have hrest := hbelow.ne_nil
      obtain ⟨hlast, node, hmem⟩ := hbelow
      refine ⟨rfl, ⟨?_, node, by simpa using hmem⟩, ?_⟩
      · rwa [List.getLast?_cons_of_ne_nil hrest]
      · rwa [List.dropLast_cons_of_ne_nil hrest]
    · exact ⟨rfl, ⟨by simp [hentry], Disk.mem_names.1 hname⟩, hlimit⟩

section Step

variable (hd : d.Tidy) (hpath : d.resolve path = .ok place) (hdir : d.node? place = some .directory)
  {name : List Char} (hname : name ∈ d.names place)

include hd hpath hdir hname

theorem resolve_child_of_mem (hlimit : Text.byteLength (child path name) ≤ Disk.pathLimit) :
    d.resolve (child path name) = .ok (place ++ [name]) := by
  obtain ⟨node, hmem⟩ := Disk.mem_names.1 hname
  have hfile : IsFileName name := hd.isFileName hmem name (List.mem_singleton_self _)
  have hstanding : d.node? (place ++ [name]) = some node :=
    (hd.node?_eq_some_iff (by simp)).2 hmem
  have hpass : d.Passable place name :=
    ⟨hdir, .inr (.inr (.inr ⟨hfile.short, by simp [hstanding]⟩))⟩
  rw [Disk.resolve_child hpath hpass hfile.slash hfile.nul (fun _ => hfile.isName.1) hlimit,
    Disk.stepPlace, if_neg, if_neg hfile.isName.2.2]
  simp [hfile.isName.1, hfile.isName.2.1]

/-- Where something is reached below a name, that is a directory. -/
theorem isDirectory_of_reached {rest : Place} (h : Reached d (child path name) (place ++ [name]) rest) :
    d.isDirectory (child path name) = true := by
  obtain ⟨hentry, hlimit⟩ := h
  have hrest := hentry.ne_nil
  obtain ⟨-, node, hmem⟩ := hentry
  obtain ⟨_, hnode⟩ := Disk.mem_names.1 hname
  have hfile : IsFileName name := hd.isFileName hnode name (List.mem_singleton_self _)
  have hfiles : ∀ n ∈ rest.dropLast, IsFileName n := fun n hn =>
    hd.isFileName hmem n (List.dropLast_subset _ hn)
  have hshort := byteLength_le_descend hfiles (isHere_child path hfile.isSegment)
    (child_ne_nil path hfile.isName.1 hfile.slash)
  exact isDirectory_of_resolve (resolve_child_of_mem hd hpath hdir hname (hshort.trans hlimit))
    (hd.node?_of_append hrest hmem)

/-- What is found by visiting what has a name. -/
theorem finds_visit {fuel : Nat} (hdeeper : d.resolve (child path name) = .ok (place ++ [name]) →
      d.node? (place ++ [name]) = some .directory →
        Finds (child path name) (Reached d (child path name) (place ++ [name]))
          (stepsFrom d (fuel + 1) [deepStep, entryStep] (child path name))) :
    Finds path (fun rel => rel.head? = some name ∧ Reached d path place rel)
      (visit d (fuel + 2) [deepStep, entryStep] (child path name)) := by
  obtain ⟨_, hnode⟩ := Disk.mem_names.1 hname
  have hfile : IsFileName name := hd.isFileName hnode name (List.mem_singleton_self _)
  simp only [visit_deep, fileName?_child path hfile, Option.some.injEq]
  have hbelow : Finds (child path name) (Reached d (child path name) (place ++ [name]))
      (if d.isDirectory (child path name) then
        stepsFrom d (fuel + 1) [deepStep, entryStep] (child path name) else []) := by
    split
    · rename_i hdirectory
      obtain ⟨place', hplace', hnode'⟩ := resolve_of_isDirectory hdirectory
      obtain ⟨-, -, hlimit⟩ := (Disk.resolve_eq_ok_iff.1 hplace').1
      have hresolve := resolve_child_of_mem hd hpath hdir hname hlimit
      obtain rfl : place ++ [name] = place' := Except.ok.inj (hresolve.symm.trans hplace')
      exact hdeeper hresolve hnode'
    · rename_i hno
      exact .nil fun rest hrest => hno (isDirectory_of_reached hd hpath hdir hname hrest)
  have hhere : Finds path (fun rel => name = ModuleName.entryFile.toList ∧ rel = [name])
      (if name = ModuleName.entryFile.toList then [child path name] else []) := by
    split
    · rename_i hentry
      exact (Finds.single path name).congr fun rel => (and_iff_right hentry).symm
    · rename_i hno
      exact .nil fun rel hrel => hno hrel.1
  refine (hbelow.cons.append hhere ?_).congr fun rel => (reached_iff hpath hname).symm
  rintro _ ⟨rest, rfl, hentry, -⟩ ⟨-, hsame⟩
  rw [List.cons.injEq] at hsame
  exact hentry.ne_nil hsame.2

end Step

/-- The way to what is reached begins with something in the directory. -/
theorem exists_name_of_reached (hd : d.Tidy) {rel : Place} (h : Reached d path place rel) :
    ∃ name ∈ d.names place, rel.head? = some name := by
  obtain ⟨⟨hlast, node, hmem⟩, -⟩ := h
  cases rel with
  | nil => cases hlast
  | cons name rest =>
    refine ⟨name, Disk.mem_names.2 ?_, rfl⟩
    by_cases hrest : rest = []
    · exact ⟨node, hrest ▸ hmem⟩
    · have habove : (place ++ [name] ++ rest, node) ∈ d.nodes := by simpa using hmem
      exact ⟨_, (hd.node?_eq_some_iff (by simp)).1 (hd.node?_of_append hrest habove)⟩

/-- A search from a directory finds each entry file below it once. -/
theorem finds_deep (hd : d.Tidy) {fuel : Nat} (hfuel : 2 * d.countBelow place + 1 ≤ fuel)
    (hpath : d.resolve path = .ok place) (hdir : d.node? place = some .directory) :
    Finds path (Reached d path place) (stepsFrom d fuel [deepStep, entryStep] path) := by
  induction hcount : d.countBelow place using Nat.strongRecOn generalizing fuel path place with
  | ind n ih =>
    obtain ⟨fuel, rfl⟩ := Nat.exists_eq_add_one_of_ne_zero (by omega : fuel ≠ 0)
    rw [stepsFrom_deep (isDirectory_of_resolve hpath hdir), childNames, hpath]
    have hnames : Finds path
        (fun rel => (∃ name ∈ d.names place, rel.head? = some name) ∧ Reached d path place rel)
        ((d.names place).flatMap fun name =>
          visit d fuel [deepStep, entryStep] (child path name)) := by
      refine Finds.flatMap (hd.nodup_names place) fun name hname => ?_
      have hless := Disk.countBelow_child hname
      obtain ⟨rest, rfl⟩ := Nat.exists_eq_add_of_le' (by omega : 2 ≤ fuel)
      exact finds_visit hd hpath hdir hname fun hresolve hnode =>
        ih _ (by omega) (by omega) hresolve hnode rfl
    exact hnames.congr fun rel => and_iff_right_of_imp fun h => exists_name_of_reached hd h

end Discovery

end BundleLedger
