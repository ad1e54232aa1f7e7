import BundleLedger.Proofs.Discovery.SearchRoot
import BundleLedger.Proofs.Text.Sorting

/-!
# Which entry files are listed

The entry files of a directory are to be listed by their names below it, each once and in order
(`Lists`). The directory is put into a pattern as it is written, and taken off again from what is found
by its components, and either can go wrong.

Where the directory has a character with a meaning of its own in a pattern, the search looks for what
the pattern matches, which need not be the directory (`lists_plain_only`). Where it has none, the
search goes to the directory and finds what is below, as far as the system takes the paths. But in a
path that is found the first piece is never `.`, so a directory like `./src` is not taken off: then
the names are not right, or nothing is found (`IsDotLed`). And a name is the name of a module, where a
`\` counts as a separator.

Results:

* `entryFiles?_undotted` and `entryFiles?_dotLed`: what is listed for a directory without special
  characters.
* `lists_iff`: when that is the entry files below it.
* `lists_plain_only`: with special characters it need not be.
-/
namespace BundleLedger.Discovery

open FilePath

variable {d : Disk} {base : List Char} {place rel : Place}

/-! ## Names below a directory -/

def nameBelow (rel : Place) : String := String.ofList (Text.join ['/'] rel)

theorem nameBelow_inj {rel' : Place} (hrel : rel ≠ []) (hrel' : rel' ≠ [])
    (h : ∀ name ∈ rel, IsFileName name) (h' : ∀ name ∈ rel', IsFileName name)
    (heq : nameBelow rel = nameBelow rel') : rel = rel' := by
  have hstrides : ∀ {names : Place}, names ≠ [] → (∀ name ∈ names, IsFileName name) →
      strides (Text.join ['/'] names) = names := by
    intro names hne hnames
    rw [← descend_dot hne hnames, (strides_descend (fun name hname => (hnames name hname).slash) _).1]
    exact List.filter_eq_self.2 fun name hname => by simpa using (hnames name hname).isSegment.stride
  rw [nameBelow, nameBelow, String.ofList_inj] at heq
  rw [← hstrides hrel h, heq, hstrides hrel' h']

/-! ## How a root begins -/

/-- Whether the first piece of a root is `.`, and some other piece is not. -/
def IsDotLed (base : List Char) : Prop := ¬ Bare base ∧ ∃ piece ∈ leadPieces base, piece ≠ ['.']

instance (base : List Char) : Decidable (IsDotLed base) := inferInstanceAs (Decidable (_ ∧ _))

theorem isAbsolute_of_not_bare (h : ¬ Bare base) : isAbsolute base = false := by
  rw [← Bool.not_eq_true]
  intro habsolute
  refine h ?_
  cases base with
  | nil => cases habsolute
  | cons c base =>
    have hc : c = '/' := by simpa [isAbsolute] using habsolute
    rw [Bare, Text.split, if_pos hc]
    simp

theorem components_of_not_bare (h : ¬ Bare base) :
    components base = .here :: (strides base).map stride := by
  rw [components, isAbsolute_of_not_bare h, filterMap_component?, if_neg Bool.false_ne_true,
    if_pos (by rwa [Bare, not_not] at h)]
  rfl

theorem ne_nil_of_head?_split {piece : List Char} (hbase : base ≠ []) (habsolute : isAbsolute base = false)
    (h : (Text.split '/' base).head? = some piece) : piece ≠ [] := by
  cases base with
  | nil => exact absurd rfl hbase
  | cons c base =>
    have hc : c ≠ '/' := by simpa [isAbsolute] using habsolute
    obtain ⟨first, rest, hsplit⟩ := List.exists_cons_of_ne_nil (Text.split_ne_nil '/' base)
    rw [Text.split, if_neg hc, hsplit] at h
    cases h
    exact List.cons_ne_nil _ _

/-- Behind all the `.` a root that does not stumble goes on with a stride. -/
theorem exists_stride_of_not_stumbles {pieces : List (List Char)} (h : ¬ Stumbles pieces)
    (hpiece : ∃ piece ∈ pieces, piece ≠ ['.']) : ∃ piece ∈ pieces, IsStride piece := by
  obtain ⟨piece, hmem, hdot⟩ := hpiece
  have hrest : pieces.dropWhile (· == ['.']) ≠ [] := by
    rw [ne_eq, List.dropWhile_eq_nil_iff]
    exact fun hall => hdot (by simpa using hall piece hmem)
  obtain ⟨next, rest, heq⟩ := List.exists_cons_of_ne_nil hrest
  have hnext := List.head?_dropWhile_not (· == ['.']) pieces
  rw [Stumbles, heq] at h
  rw [heq] at hnext
  refine ⟨next, (List.dropWhile_suffix _).subset (heq ▸ List.mem_cons_self), ?_, by simpa using hnext⟩
  rintro rfl
  exact h rfl

/-- A search goes on to a root without a `.` in front of something else. -/
theorem goesOn_of_not_dotLed (hbase : base ≠ []) (h : ¬ IsDotLed base) :
    GoesOn (searchStart base) (leadPieces base) := by
  cases habsolute : isAbsolute base with
  | true =>
    rw [searchStart, habsolute]
    exact .inr (by decide)
  | false =>
    refine .inl ⟨isHere_searchStart habsolute, fun hstumbles => h ⟨fun hbare => ?_, ?_⟩⟩
    · have hlead : leadPieces base = closedPieces base := by rw [leadPieces, habsolute]; rfl
      rw [hlead] at hstumbles
      cases hclosed : closedPieces base with
      | nil => rw [hclosed] at hstumbles; cases hstumbles
      | cons piece pieces =>
        have hhead : (Text.split '/' base).head? = some piece := by
          rcases split_eq_closedPieces base with heq | heq <;> rw [heq, hclosed] <;> rfl
        have hdot : piece ≠ ['.'] := by
          rintro rfl
          exact hbare hhead
        rw [hclosed, Stumbles, List.dropWhile_cons_of_neg (by simpa using hdot)] at hstumbles
        exact ne_nil_of_head?_split hbase habsolute hhead (Option.some.inj hstumbles)
    · refine ⟨[], ?_, by simp⟩
      exact (List.dropWhile_suffix _).subset (List.mem_of_mem_head? hstumbles)

theorem searchPath_of_dots (hbare : ¬ Bare base) (h : ∀ piece ∈ leadPieces base, piece = ['.']) :
    searchPath base = ['.'] := by
  rw [searchPath, searchStart, isAbsolute_of_not_bare hbare]
  generalize leadPieces base = pieces at h
  induction pieces with
  | nil => rfl
  | cons piece pieces ih =>
    rw [List.forall_mem_cons] at h
    rw [descend_cons, h.1]
    exact ih h.2

/-! ## What is listed -/

/-- The name under which what is found at a path is listed. -/
def shownName (base path : List Char) : String :=
  ModuleName.normalized (String.ofList ((below? base path).getD path))

theorem entryFiles?_plain {base : String} (h : IsPlainText base.toList) : entryFiles? d base =
    some (((stepsFrom d (fuelFor d (searchSteps base.toList)) (searchSteps base.toList)
      (searchStart base.toList)).map (shownName base.toList)).mergeSort fun a b => decide (a ≤ b)) := by
  unfold entryFiles?
  simp only [steps?_pattern h, Option.bind_eq_bind, Option.bind_some, isAbsolute_pattern]
  rfl

section Shown

variable (hrel : rel ≠ []) (hnames : ∀ name ∈ rel, IsFileName name)

include hrel hnames

theorem components_found (hstart : GoesOn (searchStart base) (leadPieces base)) :
    components (descend (searchPath base) rel) = (if isAbsolute base then [.root] else []) ++
      (strides base).map stride ++ rel.map .name := by
  obtain ⟨hne, hhere⟩ := searchPath_spec hstart
  obtain ⟨hstrides, habsolute⟩ := strides_searchPath base
  rw [components_descend hnames hrel hne hhere, hstrides, habsolute]

/-- Of what is found the root is taken off, and where it is a `.`, there is none. -/
theorem shownName_undotted (hbase : base ≠ []) (h : ¬ IsDotLed base) :
    shownName base (descend (searchPath base) rel) = ModuleName.normalized (nameBelow rel) := by
  have hfound := components_found hrel hnames (goesOn_of_not_dotLed hbase h)
  rw [shownName, below?, hfound]
  by_cases hbare : Bare base
  · have hrest : (components base).isPrefixOf? ((if isAbsolute base then [.root] else []) ++
        (strides base).map stride ++ rel.map .name) = some (rel.map .name) := by
      rw [List.isPrefixOf?_eq_some_iff_append_eq, components_of_bare hbare]
    rw [hrest, Option.map_some, Option.getD_some, ofComponents_names hrel hnames]
    rfl
  · have hdots : ∀ piece ∈ leadPieces base, piece = ['.'] := fun piece hpiece => by
      by_contra hdot
      exact h ⟨hbare, piece, hpiece, hdot⟩
    have hnone : strides base = [] := by
      rw [strides_eq_filter, List.filter_eq_nil_iff]
      intro piece hpiece
      rw [hdots piece hpiece]
      decide
    obtain ⟨name, rest, rfl⟩ := List.exists_cons_of_ne_nil hrel
    rw [components_of_not_bare hbare, isAbsolute_of_not_bare hbare, hnone,
      searchPath_of_dots hbare hdots, descend_dot hrel hnames]
    rfl

/-- A `.` in front is not there in what is found, so that nothing is taken off. -/
theorem shownName_dotLed (h : IsDotLed base) (hstart : GoesOn (searchStart base) (leadPieces base)) :
    (nameBelow rel).length < (shownName base (descend (searchPath base) rel)).length := by
  obtain ⟨hbare, hpiece⟩ := h
  have hrelative := isAbsolute_of_not_bare hbare
  have hstride : strides base ≠ [] := by
    have hno : ¬ Stumbles (leadPieces base) := by
      rw [searchStart, hrelative] at hstart
      exact hstart.elim And.right fun hdot => absurd hdot (by decide)
    obtain ⟨piece, hmem, hpiece⟩ := exists_stride_of_not_stumbles hno hpiece
    rw [strides_eq_filter]
    exact List.ne_nil_of_mem (List.mem_filter.2 ⟨hmem, by simpa using hpiece⟩)
  have hhere : isHere (searchPath base) = false := by
    rw [← Bool.not_eq_true]
    intro hhere
    rw [← (strides_searchPath base).1] at hstride
    exact hstride (strides_of_isHere hhere).1
  have hbelow : below? base (descend (searchPath base) rel) = none := by
    obtain ⟨first, rest, hstrides⟩ := List.exists_cons_of_ne_nil hstride
    have hmem : stride first ∈ (strides base).map stride := by
      rw [hstrides]
      exact List.mem_cons_self
    have hfirst := ne_here_of_mem_strides hmem
    rw [below?, components_found hrel hnames hstart, components_of_not_bare hbare, hrelative, hstrides]
    simp [List.isPrefixOf?, hfirst.symm]
  obtain ⟨lead, hlead, hfound⟩ := descend_eq_append hrel hnames (searchPath_spec hstart).1 hhere
  have hlength : 0 < lead.length := List.length_pos_iff.2 hlead
  rw [shownName, hbelow, Option.getD_none, hfound, nameBelow, ModuleName.normalized]
  simp [Text.replaceChar, hlength]

end Shown

section Listed

variable {base : String} (hd : d.Tidy) (hplain : IsPlainText base.toList)
  (hbase : d.resolve base.toList = .ok place) (hdir : d.node? place = some .directory)

include hd hplain hbase hdir

/-- Without a `.` in front, the entry files are listed by their names, those that are reached. -/
theorem entryFiles?_undotted (h : ¬ IsDotLed base.toList) : ∃ rels : List Place, rels.Nodup ∧
    (∀ rel, rel ∈ rels ↔ Reached d (searchPath base.toList) place rel) ∧
    entryFiles? d base = some ((rels.map fun rel => ModuleName.normalized (nameBelow rel)).mergeSort
      fun a b => decide (a ≤ b)) := by
  have hne : base.toList ≠ [] := (Disk.resolve_eq_ok_iff.1 hbase).1.2.1
  obtain ⟨rels, hnodup, hmem, hfound⟩ :=
    finds_searchPath hd hbase hdir (goesOn_of_not_dotLed hne h)
  have hnames : rels.map (shownName base.toList ∘ descend (searchPath base.toList)) =
      rels.map fun rel => ModuleName.normalized (nameBelow rel) :=
    List.map_congr_left fun rel hrel =>
      have hentry := ((hmem rel).1 hrel).1
      shownName_undotted hentry.ne_nil (hentry.isFileName hd) hne h
  refine ⟨rels, hnodup, hmem, ?_⟩
  rw [entryFiles?_plain hplain, hfound, List.map_map, hnames]

/-- With a `.` in front, what is listed is too long for the names of entry files. -/
theorem entryFiles?_dotLed (h : IsDotLed base.toList) : ∃ found, entryFiles? d base = some found ∧
    ∀ name ∈ found, ∃ rel, IsEntry d place rel ∧ (nameBelow rel).length < name.length := by
  refine ⟨_, entryFiles?_plain hplain, fun name hname => ?_⟩
  rw [List.mem_mergeSort, List.mem_map] at hname
  obtain ⟨path, hpath, rfl⟩ := hname
  by_cases hstart : GoesOn (searchStart base.toList) (leadPieces base.toList)
  · obtain ⟨rels, -, hmem, hfound⟩ := finds_searchPath hd hbase hdir hstart
    rw [hfound, List.mem_map] at hpath
    obtain ⟨rel, hrel, rfl⟩ := hpath
    have hentry := ((hmem rel).1 hrel).1
    exact ⟨rel, hentry, shownName_dotLed hentry.ne_nil (hentry.isFileName hd) h hstart⟩
  · obtain ⟨fuel, hfuel, -⟩ := fuelFor_searchSteps d base.toList place
    have hhere := isHere_searchStart (isAbsolute_of_not_bare h.1)
    have hstumbles : Stumbles (leadPieces base.toList) := by
      by_contra hno
      exact hstart (.inl ⟨hhere, hno⟩)
    rw [hfuel, searchSteps,
      stepsFrom_stumbles (List.cons_ne_nil _ _) (Nat.le_add_right _ _) hhere hstumbles] at hpath
    cases hpath

end Listed

/-! ## When the list is right -/

/-- The entry files below a directory are listed by their names, each once and in order. -/
def Lists (d : Disk) (base : String) (place : Place) : Prop :=
  ∃ found, entryFiles? d base = some found ∧ found.Pairwise (· < ·) ∧
    ∀ name, name ∈ found ↔ ∃ rel, IsEntry d place rel ∧ name = nameBelow rel

/-- What an entry file has to be like to be listed by its name. -/
structure IsListable (base : List Char) (rel : Place) : Prop where
  undotted : ¬ IsDotLed base
  /-- The system takes the path of the directory that holds it. -/
  reached : Text.byteLength (descend (searchPath base) rel.dropLast) ≤ Disk.pathLimit
  separated : '\\' ∉ (nameBelow rel).toList

instance (base : List Char) (rel : Place) : Decidable (IsListable base rel) :=
  decidable_of_iff (¬ IsDotLed base ∧
    Text.byteLength (descend (searchPath base) rel.dropLast) ≤ Disk.pathLimit ∧
      '\\' ∉ (nameBelow rel).toList)
    ⟨fun ⟨hu, hr, hs⟩ => ⟨hu, hr, hs⟩, fun ⟨hu, hr, hs⟩ => ⟨hu, hr, hs⟩⟩

/-- A list of names that are all longer than some entry file's does not have them all. -/
theorem false_of_longer {found : List String}
    (hlonger : ∀ name ∈ found, ∃ rel, IsEntry d place rel ∧ (nameBelow rel).length < name.length)
    (hmem : ∀ rel, IsEntry d place rel → nameBelow rel ∈ found) (hentry : IsEntry d place rel) : False := by
  induction hlength : (nameBelow rel).length using Nat.strongRecOn generalizing rel with
  | ind n ih =>
    obtain ⟨rel', hentry', hless⟩ := hlonger _ (hmem rel hentry)
    exact ih _ (hlength ▸ hless) hentry' rfl

section Lists

variable {base : String} (hd : d.Tidy) (hplain : IsPlainText base.toList)
  (hbase : d.resolve base.toList = .ok place) (hdir : d.node? place = some .directory)

include hd hplain hbase hdir

/-- With a `.` in front, the list is right where there is nothing to list. -/
theorem lists_dotLed_iff (h : IsDotLed base.toList) :
    Lists d base place ↔ ∀ rel, ¬ IsEntry d place rel := by
  obtain ⟨found, hfound, hlonger⟩ := entryFiles?_dotLed hd hplain hbase hdir h
  constructor
  · rintro ⟨found', hfound', -, hmem⟩ rel hentry
    obtain rfl : found = found' := Option.some.inj (hfound.symm.trans hfound')
    exact false_of_longer hlonger (fun rel hrel => (hmem _).2 ⟨rel, hrel, rfl⟩) hentry
  · intro hnone
    obtain rfl : found = [] := List.eq_nil_iff_forall_not_mem.2 fun name hname =>
      have ⟨rel, hentry, _⟩ := hlonger name hname
      hnone rel hentry
    exact ⟨[], hfound, .nil, by simp [hnone]⟩

/-- What a right list names is reached, and has a name that is listed as it is. -/
theorem isListable_of_lists (h : ¬ IsDotLed base.toList) (hlists : Lists d base place)
    (hentry : IsEntry d place rel) : IsListable base.toList rel := by
  obtain ⟨rels, -, hrels, hfound⟩ := entryFiles?_undotted hd hplain hbase hdir h
  obtain ⟨found, hfound', -, hmem⟩ := hlists
  obtain rfl := Option.some.inj (hfound.symm.trans hfound')
  simp only [List.mem_mergeSort, List.mem_map] at hmem
  -- what is listed is written with `/` only, so that a name is that of no other entry file
  have hseparated : ∀ rel, IsEntry d place rel → '\\' ∉ (nameBelow rel).toList := by
    intro rel hrel
    obtain ⟨rel', -, hname⟩ := (hmem _).2 ⟨rel, hrel, rfl⟩
    rw [← hname, ModuleName.normalized, String.toList_ofList]
    exact Text.not_mem_replaceChar (by decide) _
  obtain ⟨rel', hrel', hname⟩ := (hmem _).2 ⟨rel, hentry, rfl⟩
  obtain ⟨hentry', hreached⟩ := (hrels rel').1 hrel'
  rw [ModuleName.normalized_of_not_mem (hseparated rel' hentry')] at hname
  obtain rfl := nameBelow_inj hentry'.ne_nil hentry.ne_nil (hentry'.isFileName hd)
    (hentry.isFileName hd) hname
  exact ⟨h, hreached, hseparated _ hentry⟩

theorem lists_of_isListable (h : ¬ IsDotLed base.toList)
    (hall : ∀ rel, IsEntry d place rel → IsListable base.toList rel) : Lists d base place := by
  obtain ⟨rels, hnodup, hrels, hfound⟩ := entryFiles?_undotted hd hplain hbase hdir h
  have hmem : ∀ rel, rel ∈ rels ↔ IsEntry d place rel := fun rel =>
    (hrels rel).trans ⟨And.left, fun hentry => ⟨hentry, (hall rel hentry).reached⟩⟩
  have hnames : (rels.map fun rel => ModuleName.normalized (nameBelow rel)) = rels.map nameBelow :=
    List.map_congr_left fun rel hrel =>
      ModuleName.normalized_of_not_mem (hall rel ((hmem rel).1 hrel)).separated
  rw [hnames] at hfound
  refine ⟨_, hfound, Text.pairwise_lt_mergeSort ?_, fun name => ?_⟩
  · refine hnodup.map_on fun rel hrel rel' hrel' hname => ?_
    have hentry := (hmem rel).1 hrel
    have hentry' := (hmem rel').1 hrel'
    exact nameBelow_inj hentry.ne_nil hentry'.ne_nil (hentry.isFileName hd)
      (hentry'.isFileName hd) hname
  · simp only [List.mem_mergeSort, List.mem_map, hmem]
    exact exists_congr fun rel => and_congr_right fun _ => eq_comm

/-- For a directory without special characters, the entry files below are listed if and only if each
of them can be. -/
theorem lists_iff :
    Lists d base place ↔ ∀ rel, IsEntry d place rel → IsListable base.toList rel := by
  by_cases hdot : IsDotLed base.toList
  · rw [lists_dotLed_iff hd hplain hbase hdir hdot]
    exact forall_congr' fun rel =>
      ⟨fun hnone hentry => absurd hentry hnone, fun hall hentry => (hall hentry).undotted hdot⟩
  · exact ⟨fun hlists rel => isListable_of_lists hd hplain hbase hdir hdot hlists,
      lists_of_isListable hd hplain hbase hdir hdot⟩

end Lists

/-- A disk with files at these paths below the root, and what is above them. -/
def diskOf (files : List (List String)) : Disk where
  nodes := (files.flatMap fun file =>
    (file.inits.filter (· ≠ [])).map fun names =>
      (names.map String.toList,
        if names = file then Node.file (.text "") false else Node.directory)).dedup

/-- A root that is left and entered again, with entry files at three depths. -/
def detourDisk : Disk :=
  diskOf [["lib", "x.js"], ["src", "index.js"], ["src", "b", "index.js"], ["src", "b", "other.js"],
    ["src", "a", "b", ".c", "index.js"], ["src", "a", "index.js", "y.js"], ["index.js"]]

theorem lists_iff_detour : detourDisk.Tidy ∧ IsPlainText "lib/../src/.".toList ∧
    detourDisk.resolve "lib/../src/.".toList = .ok ["src".toList] ∧
    detourDisk.node? ["src".toList] = some .directory ∧
    (entriesBelow detourDisk ["src".toList]).map nameBelow =
      ["index.js", "b/index.js", "a/b/.c/index.js", "a/index.js"] ∧
    Lists detourDisk "lib/../src/." ["src".toList] := by
  have htidy : detourDisk.Tidy := by decide +kernel
  have hall : ∀ rel ∈ entriesBelow detourDisk ["src".toList],
      IsListable "lib/../src/.".toList rel := by decide +kernel
  refine ⟨htidy, by decide +kernel, by decide +kernel, by decide +kernel, by decide +kernel, ?_⟩
  exact (lists_iff htidy (by decide +kernel) (by decide +kernel) (by decide +kernel)).2
    fun rel hentry => hall rel (mem_entriesBelow.2 hentry)

/-- Two directories, of which the name of the first is a pattern that the name of the second matches. -/
def bracketDisk : Disk := diskOf [["src[1]", "a", "index.js"], ["src1", "b", "index.js"]]

/-- Where the name of the directory is not only plain text, the list can be that of another directory. -/
theorem lists_plain_only : ¬ ∀ (d : Disk) (base : String) (place : Place), d.Tidy →
    d.resolve base.toList = .ok place → d.node? place = some .directory →
      (∀ rel, IsEntry d place rel → IsListable base.toList rel) → Lists d base place := by
  intro h
  have hall : ∀ rel ∈ entriesBelow bracketDisk ["src[1]".toList],
      IsListable "src[1]".toList rel := by decide +kernel
  have hlisted : entryFiles? bracketDisk "src[1]" = some ["src1/b/index.js"] := by decide +kernel
  have hentry : IsEntry bracketDisk ["src[1]".toList] ["a".toList, "index.js".toList] :=
    mem_entriesBelow.1 (by decide +kernel)
  obtain ⟨found, hfound, -, hmem⟩ := h bracketDisk "src[1]" ["src[1]".toList] (by decide +kernel)
    (by decide +kernel) (by decide +kernel) fun rel hentry => hall rel (mem_entriesBelow.2 hentry)
  obtain rfl := Option.some.inj (hlisted.symm.trans hfound)
  exact absurd ((hmem _).2 ⟨_, hentry, rfl⟩) (by decide +kernel)

end BundleLedger.Discovery
