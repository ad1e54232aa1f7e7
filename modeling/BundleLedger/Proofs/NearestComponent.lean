import BundleLedger.Disk.Component
import BundleLedger.Proofs.PlainPath
import BundleLedger.Selection
import Mathlib.Data.Finset.Max

/-!
# Every module has one component

The filter of a component walks up twice: inside of its root, where a component in between takes the
module away, and outside of it, where any component does. For a module that lies in some component,
both walks together compute the nearest one (`isOwn_iff_isNearest`): inside, the root is above the
module, so nothing in between means that it is the nearest; outside, it is not above the module, and
what lies above it is foreign.

The walks need no more of the files than which directories are components, so the statement is first
made for any set of them.

Results:

* `isOwn_iff_isNearest`: a root keeps a module if and only if it is the nearest component above it.
* `exists_isNearest` and `IsNearest.unique`: there is one such component.
* `ownedBy_nearest`: the statement for the files below a source root.
-/
namespace BundleLedger.Ownership

open ModuleName FilePath

/-- `dir` is one of the directories above `path`. -/
def LiesAbove (dir path : List Char) : Prop := ∃ rest, path = dir ++ '/' :: rest

/-- `dir` is the nearest component above `path`. -/
structure IsNearest (isComponent : List Char → Bool) (dir path : List Char) : Prop where
  above : LiesAbove dir path
  component : isComponent dir = true
  longest : ∀ other, LiesAbove other path → isComponent other = true → other.length ≤ dir.length

/-! ## Directories above a path -/

theorem LiesAbove.isPrefix {dir path : List Char} (h : LiesAbove dir path) : dir <+: path := by
  obtain ⟨rest, rfl⟩ := h
  exact List.prefix_append dir _

theorem LiesAbove.isPlain {dir path : List Char} (h : LiesAbove dir path) (hp : IsPlain path) :
    IsPlain dir := by
  obtain ⟨rest, rfl⟩ := h
  exact (isPlain_append_iff.1 hp).1

theorem LiesAbove.ne {dir path : List Char} (h : LiesAbove dir path) : dir ≠ path := by
  obtain ⟨rest, rfl⟩ := h
  simp

theorem pluginMark_not_mem_resourceChars (name : List Char) : pluginMark ∉ resourceChars name := by
  intro h
  have hall := List.all_eq_true.1 (List.all_takeWhile (l := name) (p := (· != pluginMark)))
  simpa using hall _ h

theorem resourceChars_isPrefix (name : List Char) : resourceChars name <+: name :=
  List.takeWhile_prefix _

/-- A directory above a resource is above the module, and the other way round unless its name holds
the mark of a plugin. -/
theorem liesAbove_resourceChars_iff {dir name : List Char} :
    LiesAbove dir (resourceChars name) ↔ LiesAbove dir name ∧ pluginMark ∉ dir := by
  constructor
  · rintro ⟨rest, h⟩
    refine ⟨?_, ?_⟩
    · obtain ⟨plugin, hname⟩ := resourceChars_isPrefix name
      exact ⟨rest ++ plugin, by rw [← hname, h]; simp⟩
    · intro hmem
      refine pluginMark_not_mem_resourceChars name ?_
      rw [h]
      exact List.mem_append_left _ hmem
  · rintro ⟨⟨rest, rfl⟩, hmark⟩
    have hdir : ∀ c ∈ dir, (c != pluginMark) = true := by
      intro c hc
      rw [bne_iff_ne]
      rintro rfl
      exact hmark hc
    refine ⟨resourceChars rest, ?_⟩
    rw [resourceChars, List.takeWhile_append_of_pos hdir, List.takeWhile_cons_of_pos (by decide)]
    rfl

theorem isWithinChars_iff {child root : List Char} (h : isProject root = false) :
    isWithinChars child root = true ↔ child = root ∨ LiesAbove root child := by
  rw [isWithinChars, h, Bool.false_or]
  constructor
  · intro hw
    split at hw
    · rename_i heq
      exact .inl (by simpa using (List.isPrefixOf?_eq_some_iff_append_eq.1 heq).symm)
    · rename_i c rest heq
      rw [beq_iff_eq] at hw
      subst hw
      exact .inr ⟨rest, (List.isPrefixOf?_eq_some_iff_append_eq.1 heq).symm⟩
    · cases hw
  · rintro (rfl | ⟨rest, rfl⟩)
    · have hself := isPrefixOf?_append child []
      rw [List.append_nil] at hself
      rw [hself]
    · rw [isPrefixOf?_append]
      rfl

/-! ## The nearest component -/

theorem IsNearest.unique {isComponent : List Char → Bool} {dir dir' path : List Char}
    (h : IsNearest isComponent dir path) (h' : IsNearest isComponent dir' path) : dir = dir' := by
  have hle := h.longest dir' h'.above h'.component
  have hge := h'.longest dir h.above h.component
  exact (List.prefix_of_prefix_length_le h.above.isPrefix h'.above.isPrefix hge).eq_of_length
    (Nat.le_antisymm hge hle)

theorem exists_isNearest {isComponent : List Char → Bool} {path : List Char}
    (h : ∃ dir, LiesAbove dir path ∧ isComponent dir = true) :
    ∃ dir, IsNearest isComponent dir path := by
  obtain ⟨dir, habove, hcomponent⟩ := h
  let candidates := ((ancestors path).filter isComponent).toFinset
  have hmem : ∀ d, d ∈ candidates ↔ LiesAbove d path ∧ isComponent d = true := by
    intro d
    simp only [candidates, List.mem_toFinset, List.mem_filter, mem_ancestors, LiesAbove]
  obtain ⟨nearest, hn, hmax⟩ :=
    Finset.exists_max_image candidates List.length ⟨dir, (hmem dir).2 ⟨habove, hcomponent⟩⟩
  obtain ⟨ha, hc⟩ := (hmem nearest).1 hn
  exact ⟨nearest, ha, hc, fun other ho hoc => hmax other ((hmem other).2 ⟨ho, hoc⟩)⟩

/-! ## What a root keeps -/

variable {isComponent : List Char → Bool} {root child : String}

theorem isNested_iff {root child : List Char} :
    isNested isComponent child root = true ↔ isWithinChars child root = true ∧
      ∃ dir, LiesAbove dir (resourceChars child) ∧ rootLength root < dir.length ∧
        isComponent dir = true := by
  simp [isNested, mem_ancestors, LiesAbove]

theorem isForeign_iff {root child : List Char} :
    isForeign isComponent child root = true ↔ isWithinChars child root = false ∧
      ∃ dir, LiesAbove dir (resourceChars child) ∧ dir ≠ [] ∧ isComponent dir = true := by
  simp [isForeign, mem_ancestors, LiesAbove]

theorem isOwn_iff :
    isOwn isComponent root child = true ↔
      ¬ isNested isComponent child.toList root.toList = true ∧
        ¬ isForeign isComponent child.toList root.toList = true := by
  simp [isOwn]

/-- In the project root, all that lies in a component is nested. -/
theorem isNested_project {path : List Char} (hp : IsPlain (resourceChars path))
    (h : ∃ dir, LiesAbove dir (resourceChars path) ∧ isComponent dir = true) :
    isNested isComponent path ['.'] = true := by
  obtain ⟨dir, habove, hcomponent⟩ := h
  refine isNested_iff.2 ⟨by simp [isWithinChars, isProject], dir, habove, ?_, hcomponent⟩
  rw [rootLength, if_pos rfl]
  exact List.length_pos_of_ne_nil (habove.isPlain hp).ne_nil

/-- A component keeps a module that lies in some component if and only if it is the nearest one. -/
theorem isOwn_iff_isNearest (hp : IsPlain (resourceChars child.toList))
    (h : ∃ dir, LiesAbove dir (resourceChars child.toList) ∧ isComponent dir = true)
    (hroot : IsPlain root.toList) (hmark : pluginMark ∉ root.toList)
    (hcomponent : isComponent root.toList = true) (hne : root ≠ child) :
    isOwn isComponent root child = true ↔
      IsNearest isComponent root.toList (resourceChars child.toList) := by
  have hproject : isProject root.toList = false := by
    simp [isProject, hroot.ne_nil, hroot.ne_here]
  have hlength : rootLength root.toList = root.toList.length := by
    rw [rootLength, if_neg hroot.ne_here]
  have hself : child.toList ≠ root.toList := fun he => hne (String.toList_inj.1 he).symm
  have hwithin : isWithinChars child.toList root.toList = true ↔
      LiesAbove root.toList (resourceChars child.toList) := by
    rw [isWithinChars_iff hproject, or_iff_right hself, liesAbove_resourceChars_iff,
      and_iff_left hmark]
  rw [isOwn_iff, isNested_iff, isForeign_iff, ← Bool.not_eq_true, hwithin, hlength]
  constructor
  · rintro ⟨hnested, hforeign⟩
    have habove : LiesAbove root.toList (resourceChars child.toList) := by
      by_contra houtside
      obtain ⟨dir, hdir, hc⟩ := h
      exact hforeign ⟨houtside, dir, hdir, (hdir.isPlain hp).ne_nil, hc⟩
    refine ⟨habove, hcomponent, fun other ho hc => ?_⟩
    by_contra hlong
    exact hnested ⟨habove, other, ho, by omega, hc⟩
  · intro hnearest
    refine ⟨?_, fun hforeign => hforeign.1 hnearest.above⟩
    rintro ⟨-, dir, hdir, hlong, hc⟩
    have := hnearest.longest dir hdir hc
    omega

/-! ## Below a source root -/

/-- A root that components are bundled for: the project root, or a directory with an entry file. -/
def IsRoot (disk : Disk) (base root : String) : Prop :=
  root = "." ∨
    IsPlain root.toList ∧ pluginMark ∉ root.toList ∧ disk.isComponent base root.toList = true

theorem isOwn_iff_isNearest_of_isRoot {disk : Disk} {base : String}
    (hp : IsPlain (resourceChars child.toList))
    (h : ∃ dir, LiesAbove dir (resourceChars child.toList) ∧ disk.isComponent base dir = true)
    (hroot : IsRoot disk base root) (hne : root ≠ child) :
    isOwn (disk.isComponent base) root child = true ↔
      IsNearest (disk.isComponent base) root.toList (resourceChars child.toList) := by
  rcases hroot with rfl | ⟨hplain, hmark, hcomponent⟩
  · refine iff_of_false ?_ ?_
    · exact fun hown => (isOwn_iff.1 hown).1 (isNested_project hp h)
    · exact fun hnearest => not_isPlain_here (hnearest.above.isPlain hp)
  · exact isOwn_iff_isNearest hp h hplain hmark hcomponent hne

theorem IsNearest.isRoot {disk : Disk} {base : String} {dir : List Char}
    (h : IsNearest (disk.isComponent base) dir (resourceChars child.toList))
    (hp : IsPlain (resourceChars child.toList)) :
    IsRoot disk base (String.ofList dir) ∧ String.ofList dir ≠ child := by
  have habove := liesAbove_resourceChars_iff.1 h.above
  refine ⟨.inr ?_, ?_⟩
  · rw [String.toList_ofList]
    exact ⟨h.above.isPlain hp, habove.2, h.component⟩
  · rintro rfl
    exact habove.1.ne (String.toList_ofList).symm

theorem mem_ownedBy {root : String} {graph : Graph} {key : String} {r : Record} :
    (key, r) ∈ Selection.ownedBy isComponent root graph ↔
      (key, r) ∈ graph ∧ isOwn isComponent root r.name = true := by
  simp [Selection.ownedBy, Selection.keepNames]

/-- For all files and every module that lies in some component: of all roots but the module's own
name, the one that keeps it is the nearest component above it, and there is one. -/
theorem ownedBy_nearest (disk : Disk) (base : String) (r : Record)
    (hp : IsPlain (resourceChars r.name.toList))
    (h : ∃ dir, LiesAbove dir (resourceChars r.name.toList) ∧ disk.isComponent base dir = true) :
    (∀ root graph key, IsRoot disk base root → root ≠ r.name → (key, r) ∈ graph →
      ((key, r) ∈ Selection.ownedBy (disk.isComponent base) root graph ↔
        IsNearest (disk.isComponent base) root.toList (resourceChars r.name.toList))) ∧
    (∀ root root' graph graph' key key', IsRoot disk base root → IsRoot disk base root' →
      root ≠ r.name → root' ≠ r.name →
      (key, r) ∈ Selection.ownedBy (disk.isComponent base) root graph →
      (key', r) ∈ Selection.ownedBy (disk.isComponent base) root' graph' → root = root') ∧
    ∃ root, IsRoot disk base root ∧ root ≠ r.name ∧ ∀ graph key, (key, r) ∈ graph →
      (key, r) ∈ Selection.ownedBy (disk.isComponent base) root graph := by
  refine ⟨?_, ?_, ?_⟩
  · intro root graph key hroot hne hmem
    rw [mem_ownedBy, isOwn_iff_isNearest_of_isRoot hp h hroot hne]
    exact and_iff_right hmem
  · intro root root' graph graph' key key' hroot hroot' hne hne' hown hown'
    have hnearest := (isOwn_iff_isNearest_of_isRoot hp h hroot hne).1 (mem_ownedBy.1 hown).2
    have hnearest' := (isOwn_iff_isNearest_of_isRoot hp h hroot' hne').1 (mem_ownedBy.1 hown').2
    exact String.toList_inj.1 (hnearest.unique hnearest')
  · obtain ⟨dir, hnearest⟩ := exists_isNearest h
    obtain ⟨hroot, hne⟩ := hnearest.isRoot hp
    refine ⟨String.ofList dir, hroot, hne, fun graph key hmem => mem_ownedBy.2 ⟨hmem, ?_⟩⟩
    rw [isOwn_iff_isNearest_of_isRoot hp h hroot hne, String.toList_ofList]
    exact hnearest

/-! ## A component in a component -/

/-- A source root with a component `a`, a component `a/b` in it, and a component `a/bc` beside that. -/
def nestedDisk : Disk where
  nodes := [(["src".toList], .directory), (["src".toList, "a".toList], .directory),
    (["src".toList, "a".toList, "b".toList], .directory),
    (["src".toList, "a".toList, "bc".toList], .directory),
    (["src".toList, "a".toList, "index.js".toList], .file (.text "") false),
    (["src".toList, "a".toList, "b".toList, "index.js".toList], .file (.text "") false),
    (["src".toList, "a".toList, "bc".toList, "index.js".toList], .file (.text "") false)]

/-- A style that lies some way below `a/bc`. -/
def nestedRecord : Record := ⟨"a/bc/styles/x.css!npm:plugin-css@0.1.20", []⟩

/-- Of the components `a`, `a/b` and `a/bc`, only the last keeps the style, though the name of the
style begins with those of the other two. -/
theorem ownedBy_nearest_nested :
    IsPlain (resourceChars nestedRecord.name.toList) ∧
      LiesAbove "a".toList (resourceChars nestedRecord.name.toList) ∧
      nestedDisk.isComponent "src" "a".toList = true ∧
      IsRoot nestedDisk "src" "a/b" ∧ IsRoot nestedDisk "src" "a/bc" ∧
      ("x", nestedRecord) ∈
        Selection.ownedBy (nestedDisk.isComponent "src") "a/bc" [("x", nestedRecord)] ∧
      ∀ root, IsRoot nestedDisk "src" root → root ≠ nestedRecord.name →
        (("x", nestedRecord) ∈
            Selection.ownedBy (nestedDisk.isComponent "src") root [("x", nestedRecord)] ↔
          IsNearest (nestedDisk.isComponent "src") root.toList
            (resourceChars nestedRecord.name.toList)) := by
  have hp : IsPlain (resourceChars nestedRecord.name.toList) := by decide +kernel
  have habove : LiesAbove "a".toList (resourceChars nestedRecord.name.toList) :=
    ⟨"bc/styles/x.css".toList, by decide +kernel⟩
  have hcomponent : nestedDisk.isComponent "src" "a".toList = true := by decide +kernel
  have hmem : ("x", nestedRecord) ∈ [("x", nestedRecord)] := List.mem_singleton.2 rfl
  exact ⟨hp, habove, hcomponent, .inr (by decide +kernel), .inr (by decide +kernel),
    mem_ownedBy.2 ⟨hmem, by decide +kernel⟩, fun root hroot hne =>
      (ownedBy_nearest nestedDisk "src" nestedRecord hp ⟨_, habove, hcomponent⟩).1
        root _ "x" hroot hne hmem⟩

end BundleLedger.Ownership
