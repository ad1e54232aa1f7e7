import BundleLedger.Discovery.Search
import BundleLedger.Proofs.Disk.ReadBack
import BundleLedger.Proofs.FilePath.Leading

/-!
# Paths that grow by names

A search goes from a path to what lies in it by putting a name behind it (`child`), where the path of
the working directory is left out. So the strides of a path only ever grow (`strides_child`), and where
a path leads to a directory, the longer one leads to what has the name there (`resolve_child`), as long
as the system takes paths of that length.

Results:

* `strides_descend` and `components_descend`: what a path with names behind it is made of.
* `descend_dot` and `descend_eq_append`: how it is written.
* `byteLength_child`: how long a path gets.
* `resolve_child`: where it leads.
-/
namespace BundleLedger

namespace FilePath

theorem isAbsolute_of_not_mem {piece : List Char} (h : '/' ∉ piece) : isAbsolute piece = false := by
  rw [← Bool.not_eq_true, isAbsolute, beq_iff_eq]
  exact fun hhead => h (List.mem_of_mem_head? hhead)

structure IsFileName (name : List Char) : Prop where
  isName : IsName name
  slash : '/' ∉ name
  nul : '\x00' ∉ name
  short : Text.byteLength name ≤ Disk.nameLimit

instance (name : List Char) : Decidable (IsFileName name) :=
  decidable_of_iff (IsName name ∧ '/' ∉ name ∧ '\x00' ∉ name ∧ Text.byteLength name ≤ Disk.nameLimit)
    ⟨fun ⟨h, hs, hn, hl⟩ => ⟨h, hs, hn, hl⟩, fun ⟨h, hs, hn, hl⟩ => ⟨h, hs, hn, hl⟩⟩

theorem IsFileName.isSegment {name : List Char} (h : IsFileName name) : IsSegment name :=
  ⟨⟨h.isName.1, h.isName.2.1⟩, h.slash⟩

theorem IsFileName.stride {name : List Char} (h : IsFileName name) : stride name = .name name :=
  if_neg h.isName.2.2

/-- A path that does not begin with a `.` for the working directory. -/
def Bare (path : List Char) : Prop := (Text.split '/' path).head? ≠ some ['.']

instance (path : List Char) : Decidable (Bare path) := inferInstanceAs (Decidable (_ ≠ _))

theorem components_of_bare {path : List Char} (h : Bare path) : components path =
    (if isAbsolute path then [.root] else []) ++ (strides path).map stride := by
  rw [components, filterMap_component?, if_neg h]
  rfl

theorem bare_join {path piece : List Char} (hpath : path ≠ []) (h : Bare path)
    (hslash : '/' ∉ piece) : Bare (join path piece) := by
  obtain ⟨above, hsplit, hleft⟩ := split_join path (isAbsolute_of_not_mem hslash)
  have hne : above ≠ [] := by
    rintro rfl
    rcases hleft with hleft | hleft
    · exact Text.split_ne_nil _ _ hleft
    · refine hpath ?_
      rw [← Text.join_split '/' path, hleft]
      rfl
  obtain ⟨first, rest, rfl⟩ := List.exists_cons_of_ne_nil hne
  rw [Bare, hsplit]
  rcases hleft with hleft | hleft <;> rw [Bare, hleft] at h <;> simpa using h

end FilePath

namespace Discovery

open FilePath

variable {path name : List Char}

/-! ## The working directory -/

theorem isHere_iff : isHere path = true ↔ components path = [.here] := by
  rw [isHere, beq_iff_eq]

theorem strides_of_isHere (h : isHere path = true) : strides path = [] ∧ isAbsolute path = false := by
  have hcomponents := components_filter path
  rw [isHere_iff.1 h] at hcomponents
  have hnone : ([.here] : List Component).filter (· ≠ .here) = [] := by decide
  rw [hnone] at hcomponents
  cases habsolute : isAbsolute path with
  | true => simp [habsolute] at hcomponents
  | false =>
    rw [habsolute] at hcomponents
    exact ⟨List.map_eq_nil_iff.1 hcomponents.symm, rfl⟩

theorem isHere_of_bare (h : Bare path) : isHere path = false := by
  rw [← Bool.not_eq_true, isHere_iff, components_of_bare h]
  intro hhere
  cases habsolute : isAbsolute path with
  | true => simp [habsolute] at hhere
  | false =>
    rw [habsolute] at hhere
    have hmem : Component.here ∈ (strides path).map stride := by
      rw [show (strides path).map stride = [.here] from hhere]
      exact List.mem_singleton_self _
    exact ne_here_of_mem_strides hmem rfl

theorem isHere_dot : isHere ['.'] = true := by decide

/-! ## One name more -/

theorem child_of_isHere (h : isHere path = true) (name : List Char) : child path name = name := if_pos h

theorem child_of_not_isHere (h : isHere path = false) (name : List Char) :
    child path name = join path name := if_neg (by simp [h])

theorem strides_child (path : List Char) (hslash : '/' ∉ name) :
    strides (child path name) = strides path ++ [name].filter (IsStride ·) := by
  have hname : strides name = [name].filter (IsStride ·) := by
    rw [strides, Text.split_of_not_mem hslash]
  cases hhere : isHere path with
  | true => rw [child_of_isHere hhere, (strides_of_isHere hhere).1, hname, List.nil_append]
  | false => rw [child_of_not_isHere hhere, strides_join _ (isAbsolute_of_not_mem hslash), hname]

theorem isAbsolute_child (path : List Char) (hslash : '/' ∉ name) :
    isAbsolute (child path name) = isAbsolute path := by
  have hname := isAbsolute_of_not_mem hslash
  cases hhere : isHere path with
  | true => rw [child_of_isHere hhere, (strides_of_isHere hhere).2, hname]
  | false => rw [child_of_not_isHere hhere, isAbsolute_join _ hname]

/-- Behind a name nothing is the working directory. -/
theorem isHere_child (path : List Char) (hname : IsSegment name) : isHere (child path name) = false := by
  rw [← Bool.not_eq_true]
  intro hhere
  have hstrides := (strides_of_isHere hhere).1
  rw [strides_child path hname.slash] at hstrides
  simp [hname.stride] at hstrides

theorem child_ne_nil (path : List Char) (hname : name ≠ []) (hslash : '/' ∉ name) :
    child path name ≠ [] := by
  cases hhere : isHere path with
  | true => rwa [child_of_isHere hhere]
  | false =>
    obtain ⟨lead, hlead⟩ := join_eq_append path (isAbsolute_of_not_mem hslash)
    rw [child_of_not_isHere hhere, hlead]
    exact List.append_ne_nil_of_right_ne_nil _ hname

theorem bare_child (hpath : path ≠ []) (h : isHere path = true ∨ Bare path) (hname : IsFileName name) :
    Bare (child path name) := by
  rcases h with hhere | hbare
  · rw [child_of_isHere hhere, Bare, Text.split_of_not_mem hname.slash]
    simpa using hname.isName.2.1
  · rw [child_of_not_isHere (isHere_of_bare hbare)]
    exact bare_join hpath hbare hname.slash

theorem fileName?_child (path : List Char) (hname : IsFileName name) :
    fileName? (child path name) = some name := by
  have hlast : (components (child path name)).getLast? = some (.name name) := by
    rw [components, filterMap_component?]
    change (_ ++ (strides (child path name)).map stride).getLast? = _
    rw [strides_child path hname.slash, List.map_append, ← List.append_assoc]
    simp [hname.isSegment.stride, hname.stride]
  rw [fileName?, hlast]

/-! ## Names one after the other -/

/-- The path of what lies below a path. -/
def descend (path : List Char) (names : Place) : List Char := names.foldl child path

theorem descend_cons (path name : List Char) (names : Place) :
    descend path (name :: names) = descend (child path name) names := rfl

theorem strides_descend {pieces : List (List Char)} (h : ∀ piece ∈ pieces, '/' ∉ piece)
    (path : List Char) : strides (descend path pieces) = strides path ++ pieces.filter (IsStride ·) ∧
      isAbsolute (descend path pieces) = isAbsolute path := by
  induction pieces generalizing path with
  | nil => simp [descend]
  | cons piece pieces ih =>
    rw [List.forall_mem_cons] at h
    obtain ⟨hstrides, habsolute⟩ := ih h.2 (child path piece)
    rw [descend_cons, hstrides, habsolute, strides_child path h.1, isAbsolute_child path h.1,
      List.append_assoc, ← List.filter_append]
    exact ⟨rfl, rfl⟩

theorem bare_descend {names : Place} (h : ∀ name ∈ names, IsFileName name) (hnames : names ≠ [])
    (hpath : path ≠ []) (hstart : isHere path = true ∨ Bare path) : Bare (descend path names) := by
  induction names generalizing path with
  | nil => exact absurd rfl hnames
  | cons name names ih =>
    rw [List.forall_mem_cons] at h
    have hbare := bare_child hpath hstart h.1
    rw [descend_cons]
    by_cases hnil : names = []
    · rw [hnil]
      exact hbare
    · exact ih h.2 hnil (child_ne_nil path h.1.isName.1 h.1.slash) (.inr hbare)

/-- The components of a path below another are those of the other, and the names. -/
theorem components_descend {names : Place} (h : ∀ name ∈ names, IsFileName name) (hnames : names ≠ [])
    (hpath : path ≠ []) (hstart : isHere path = true ∨ Bare path) :
    components (descend path names) = (if isAbsolute path then [.root] else []) ++
      (strides path).map stride ++ names.map .name := by
  obtain ⟨hstrides, habsolute⟩ := strides_descend (fun name hname => (h name hname).slash) path
  have hall : names.filter (IsStride ·) = names :=
    List.filter_eq_self.2 fun name hname => by simpa using (h name hname).isSegment.stride
  have hplain : names.map stride = names.map .name :=
    List.map_congr_left fun name hname => (h name hname).stride
  rw [components_of_bare (bare_descend h hnames hpath hstart), hstrides, habsolute, hall,
    List.map_append, hplain, List.append_assoc]

/-! ## How it is written -/

/-- Names behind a path that is empty or closed by a separator, and a name. -/
theorem descend_append (lead : List Char) {name : List Char} {names : Place}
    (hlead : lead ≠ [] → lead.getLast? = some '/') (hname : IsFileName name)
    (h : ∀ n ∈ names, IsFileName n) :
    descend (lead ++ name) names = lead ++ Text.join ['/'] (name :: names) := by
  induction names generalizing lead name with
  | nil => rfl
  | cons next names ih =>
    rw [List.forall_mem_cons] at h
    have hstrides : name ∈ strides (lead ++ name) := by
      by_cases hnil : lead = []
      · rw [hnil, List.nil_append, hname.isSegment.strides]
        exact List.mem_singleton_self _
      · obtain ⟨init, rfl⟩ := List.getLast?_eq_some_iff.1 (hlead hnil)
        rw [List.append_assoc, List.singleton_append, strides_append, hname.isSegment.strides]
        exact List.mem_append_right _ (List.mem_singleton_self _)
    have hhere : isHere (lead ++ name) = false := by
      rw [← Bool.not_eq_true]
      intro hhere
      rw [(strides_of_isHere hhere).1] at hstrides
      exact List.not_mem_nil hstrides
    have hopen : name.getLast? ≠ some '/' := fun hlast => hname.slash (List.mem_of_getLast? hlast)
    have hnext : child (lead ++ name) next = lead ++ name ++ ['/'] ++ next := by
      rw [child_of_not_isHere hhere, join, isAbsolute_of_not_mem h.1.slash]
      simp [hname.isName.1, hopen]
    rw [descend_cons, hnext, ih _ (by simp) h.1 h.2, Text.join_cons_of_ne_nil _ _ (List.cons_ne_nil _ _)]
    simp

/-- Below the working directory a path is the names. -/
theorem descend_dot {names : Place} (hnames : names ≠ []) (h : ∀ name ∈ names, IsFileName name) :
    descend ['.'] names = Text.join ['/'] names := by
  obtain ⟨name, rest, rfl⟩ := List.exists_cons_of_ne_nil hnames
  rw [List.forall_mem_cons] at h
  rw [descend_cons, child_of_isHere isHere_dot]
  exact descend_append [] (by simp) h.1 h.2

/-- Below any other path, something stands in front of them. -/
theorem descend_eq_append {names : Place} (hnames : names ≠ []) (h : ∀ name ∈ names, IsFileName name)
    (hpath : path ≠ []) (hhere : isHere path = false) :
    ∃ lead, lead ≠ [] ∧ descend path names = lead ++ Text.join ['/'] names := by
  obtain ⟨name, rest, rfl⟩ := List.exists_cons_of_ne_nil hnames
  rw [List.forall_mem_cons] at h
  rw [descend_cons, child_of_not_isHere hhere, join, isAbsolute_of_not_mem h.1.slash]
  by_cases hclosed : path.getLast? = some '/'
  · refine ⟨path, hpath, ?_⟩
    simpa [hpath, hclosed] using descend_append path (fun _ => hclosed) h.1 h.2
  · refine ⟨path ++ ['/'], by simp, ?_⟩
    simpa [hpath, hclosed] using descend_append (path ++ ['/']) (by simp) h.1 h.2

theorem foldl_join_names {names : Place} (h : ∀ name ∈ names, IsFileName name)
    (hhere : isHere path = false) : names.foldl join path = descend path names := by
  induction names generalizing path with
  | nil => rfl
  | cons name names ih =>
    rw [List.forall_mem_cons] at h
    rw [List.foldl_cons, ← child_of_not_isHere hhere, ih h.2 (isHere_child path h.1.isSegment),
      descend_cons]

theorem ofComponents_names {names : Place} (hnames : names ≠ []) (h : ∀ name ∈ names, IsFileName name) :
    ofComponents (names.map .name) = Text.join ['/'] names := by
  obtain ⟨name, rest, rfl⟩ := List.exists_cons_of_ne_nil hnames
  have hall := List.forall_mem_cons.1 h
  have hhere : isHere name = false := by
    rw [← child_of_isHere isHere_dot name]
    exact isHere_child _ hall.1.isSegment
  rw [ofComponents, List.foldl_map, ← descend_dot hnames h, descend_cons, child_of_isHere isHere_dot,
    ← foldl_join_names hall.2 hhere, List.foldl_cons, join_empty_left]
  rfl

/-! ## Lengths -/

/-- How many bytes stand in front of a name in a path. -/
def room (path : List Char) : Nat :=
  if isHere path then 0
  else if path.getLast? = some '/' then Text.byteLength path
  else Text.byteLength path + 1

theorem byteLength_child (hpath : path ≠ []) (hslash : '/' ∉ name) :
    Text.byteLength (child path name) = room path + Text.byteLength name := by
  have hseparator : Text.byteLength ['/'] = 1 := by decide
  have hname := isAbsolute_of_not_mem hslash
  cases hhere : isHere path with
  | true => simp [child_of_isHere hhere, room, hhere]
  | false =>
    rw [child_of_not_isHere hhere, room, hhere, join, hname]
    by_cases hclosed : path.getLast? = some '/'
    · simp [hpath, hclosed, Text.byteLength_append]
    · have hcons : ('/' :: name) = ['/'] ++ name := rfl
      simp only [Bool.false_eq_true, if_false, if_neg hpath, if_neg hclosed]
      rw [hcons, Text.byteLength_append, Text.byteLength_append, hseparator]
      omega

theorem byteLength_le_room (h : isHere path = false) : Text.byteLength path ≤ room path := by
  rw [room, h]
  split
  · cases ‹false = true›
  · split <;> omega

theorem room_le (path : List Char) : room path ≤ Text.byteLength path + 1 := by
  rw [room]
  split
  · omega
  · split <;> omega

/-- A path gets no shorter on the way down. -/
theorem byteLength_le_descend {names : Place} (h : ∀ name ∈ names, IsFileName name)
    (hhere : isHere path = false) (hpath : path ≠ []) :
    Text.byteLength path ≤ Text.byteLength (descend path names) := by
  induction names generalizing path with
  | nil => exact Nat.le_refl _
  | cons name names ih =>
    rw [List.forall_mem_cons] at h
    have hroom := byteLength_le_room hhere
    have hstep := byteLength_child hpath h.1.slash
    have hrest := ih h.2 (isHere_child path h.1.isSegment) (child_ne_nil path h.1.isName.1 h.1.slash)
    rw [descend_cons]
    omega

end Discovery

/-! ## Where paths lead -/

namespace Disk

open Discovery FilePath

variable {d : Disk} {path piece : List Char} {place : Place}

theorem exists_of_walk_append {start : Place} {above below : List (List Char)}
    (h : d.walk start (above ++ below) = .ok place) :
    ∃ between, d.walk start above = .ok between ∧ d.walk between below = .ok place := by
  induction above generalizing start with
  | nil => exact ⟨start, rfl, h⟩
  | cons name above ih =>
    have hpass : d.Passable start name := passable_of_walk h
    rw [List.cons_append, walk_cons hpass] at h
    rw [walk_cons hpass]
    exact ih h

theorem pathFault?_eq_none_iff : pathFault? path = none ↔
    '\x00' ∉ path ∧ path ≠ [] ∧ Text.byteLength path ≤ pathLimit := by
  unfold pathFault?
  by_cases hnul : path.contains '\x00' = true
  · simp only [hnul, if_true]
    simp only [List.contains_iff_mem] at hnul
    simp [hnul]
  · rw [if_neg hnul]
    simp only [List.contains_iff_mem] at hnul
    by_cases hnil : path = []
    · simp [hnil]
    · simp [hnil, hnul]

theorem resolve_eq_ok_iff : d.resolve path = .ok place ↔ ('\x00' ∉ path ∧ path ≠ [] ∧
    Text.byteLength path ≤ pathLimit) ∧ d.walk (d.startOf path) (Text.split '/' path) = .ok place := by
  rw [← pathFault?_eq_none_iff, resolve]
  cases pathFault? path <;> simp

/-- The working directory is where paths start. -/
theorem eq_workingDir_of_isHere (hhere : isHere path = true) (h : d.resolve path = .ok place) :
    place = d.workingDir := by
  obtain ⟨hstrides, habsolute⟩ := strides_of_isHere hhere
  rw [resolve_eq_ok h, led, ← pointed_filter, startOf, habsolute]
  change pointed _ (strides path) = _
  rw [hstrides]
  rfl

theorem resolve_child (h : d.resolve path = .ok place) (hpass : d.Passable place piece)
    (hslash : '/' ∉ piece) (hnul : '\x00' ∉ piece) (hne : isHere path = true → piece ≠ [])
    (hlimit : Text.byteLength (child path piece) ≤ pathLimit) :
    d.resolve (child path piece) = .ok (stepPlace place piece) := by
  have hrelative := isAbsolute_of_not_mem hslash
  obtain ⟨⟨hpathnul, hpath, -⟩, hwalk⟩ := resolve_eq_ok_iff.1 h
  rw [resolve_eq_ok_iff]
  cases hhere : isHere path with
  | true =>
    rw [eq_workingDir_of_isHere hhere h] at hpass ⊢
    rw [child_of_isHere hhere] at hlimit ⊢
    refine ⟨⟨hnul, hne hhere, hlimit⟩, ?_⟩
    rw [Text.split_of_not_mem hslash, startOf, hrelative, if_neg Bool.false_ne_true, walk_cons hpass]
    rfl
  | false =>
    rw [child_of_not_isHere hhere] at hlimit ⊢
    obtain ⟨above, hsplit, hleft⟩ := split_join path hrelative
    have habove : d.walk (d.startOf path) above = .ok place := by
      rcases hleft with hleft | hleft <;> rw [hleft] at hwalk
      · exact hwalk
      · -- the empty piece at the end leads nowhere else
        obtain ⟨between, hbetween, hend⟩ := exists_of_walk_append hwalk
        have hsame := walk_eq_ok hend
        rw [hbetween, hsame]
        rfl
    refine ⟨⟨?_, join_ne_nil_of_left hpath hrelative, hlimit⟩, ?_⟩
    · intro hmem
      rcases mem_join hmem with hmem | hmem | hmem
      · exact hpathnul hmem
      · exact hnul hmem
      · cases hmem
    · rw [hsplit, Text.split_of_not_mem hslash, startOf_join hrelative, walk_append habove,
        walk_cons hpass]
      rfl

end Disk

end BundleLedger
