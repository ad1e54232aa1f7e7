import BundleLedger.Bundle.Save
import BundleLedger.Disk.Component
import BundleLedger.Proofs.Disk.ReadBack
import BundleLedger.Proofs.PlainPath
import Mathlib.Data.List.TakeWhile

/-!
# Where the files of a bundle lie

A root is the project or a plain path, and its bundle and source map lie straight below the output
directory: the names of the root lead there, and the last of them has the ending of the file
(`led_file`). So files of roots with different ids lie at different places, whatever the output
directory is called.

Results:

* `led_join` and `mem_way_join`: where a plain path leads below a directory, and what is on its way.
* `id_eq_iff_stem`: two roots have one id exactly when they have one stem.
* `led_path_inj`, `led_mapPath_inj` and `led_path_ne_led_mapPath`: no two files share a place.
-/
namespace BundleLedger

open FilePath

/-! ## Plain paths below a directory -/

namespace Disk

theorem pointed_append (start : Place) (above below : List (List Char)) :
    pointed start (above ++ below) = pointed (pointed start above) below :=
  List.foldl_append

theorem pointed_names {pieces : List (List Char)} (h : ∀ piece ∈ pieces, IsName piece)
    (start : Place) : pointed start pieces = start ++ pieces := by
  induction pieces generalizing start with
  | nil => simp [pointed]
  | cons piece pieces ih =>
    simp only [List.forall_mem_cons] at h
    obtain ⟨⟨hempty, hhere, hup⟩, hrest⟩ := h
    have hstep : stepPlace start piece = start ++ [piece] := by
      simp [stepPlace, hempty, hhere, hup]
    have hpointed : pointed start (piece :: pieces) = pointed (stepPlace start piece) pieces := rfl
    rw [hpointed, hstep, ih hrest, List.append_assoc, List.singleton_append]

theorem isPrefix_of_mem_passed {pieces : List (List Char)} (h : ∀ piece ∈ pieces, IsName piece)
    {start p : Place} (hp : p ∈ passed start pieces) : start <+: p := by
  induction pieces generalizing start with
  | nil =>
    simp only [passed, List.mem_singleton] at hp
    subst hp
    exact List.prefix_rfl
  | cons piece pieces ih =>
    simp only [List.forall_mem_cons] at h
    simp only [passed, List.mem_cons] at hp
    rcases hp with rfl | hp
    · exact List.prefix_rfl
    · have hnext := ih h.2 hp
      rw [stepPlace, if_neg (by simp [h.1.1, h.1.2.1]), if_neg h.1.2.2] at hnext
      exact (List.prefix_append start [piece]).trans hnext

theorem mem_passed_append {start p : Place} {above below : List (List Char)}
    (h : p ∈ passed start (above ++ below)) :
    p ∈ passed start above ∨ p ∈ passed (pointed start above) below := by
  induction above generalizing start with
  | nil => exact .inr h
  | cons piece above ih =>
    simp only [List.cons_append, passed, List.mem_cons] at h ⊢
    rcases h with rfl | h
    · exact .inl (.inl rfl)
    · exact (ih h).imp_left .inr

theorem passed_subset_append (start : Place) (above below : List (List Char)) :
    ∀ p ∈ passed start above, p ∈ passed start (above ++ below) := by
  induction above generalizing start with
  | nil =>
    intro p hp
    simp only [passed, List.mem_singleton] at hp
    rw [hp]
    exact start_mem_passed start _
  | cons piece above ih =>
    intro p hp
    simp only [List.cons_append, passed, List.mem_cons] at hp ⊢
    exact hp.imp_right (ih _ p)

end Disk

theorem FilePath.IsPlain.isAbsolute {path : List Char} (h : IsPlain path) :
    FilePath.isAbsolute path = false := by
  rw [← Bool.not_eq_true]
  intro habsolute
  rw [FilePath.isAbsolute, beq_iff_eq, List.head?_eq_some_iff] at habsolute
  obtain ⟨rest, rfl⟩ := habsolute
  exact (h [] (by simp [Text.split])).1 rfl

/-- A relative path that is joined to another stands at its end. -/
theorem FilePath.join_eq_append (left : List Char) {right : List Char}
    (h : isAbsolute right = false) : ∃ lead, join left right = lead ++ right := by
  simp only [join, h, Bool.false_eq_true, if_false]
  split
  · exact ⟨[], rfl⟩
  · split
    · exact ⟨left, rfl⟩
    · exact ⟨left ++ ['/'], by simp⟩

/-- The pieces of a joined path are those of both sides; an empty piece at the end of the left side
is left out. -/
theorem FilePath.split_join (left : List Char) {right : List Char} (h : isAbsolute right = false) :
    ∃ above, Text.split '/' (join left right) = above ++ Text.split '/' right ∧
      (Text.split '/' left = above ∨ Text.split '/' left = above ++ [[]]) := by
  simp only [join, h, Bool.false_eq_true, if_false]
  split
  · rename_i hnil
    exact ⟨[], by simp, .inr (by rw [hnil]; rfl)⟩
  · split
    · rename_i hslash
      obtain ⟨init, rfl⟩ := List.getLast?_eq_some_iff.1 hslash
      refine ⟨Text.split '/' init, ?_, .inr (Text.split_append '/' init [])⟩
      rw [List.append_assoc, List.singleton_append, Text.split_append]
    · exact ⟨Text.split '/' left, Text.split_append '/' left right, .inl rfl⟩

/-- A joined path starts where the left side does. -/
theorem FilePath.isAbsolute_join (left : List Char) {right : List Char}
    (h : isAbsolute right = false) : isAbsolute (join left right) = isAbsolute left := by
  simp only [join, h, Bool.false_eq_true, if_false]
  split
  · rename_i hnil
    rw [hnil, h]
    rfl
  · rename_i hne
    obtain ⟨c, rest, rfl⟩ := List.exists_cons_of_ne_nil hne
    split <;> rfl

namespace Disk

variable {d : Disk} {left right : List Char}

theorem startOf_join (h : isAbsolute right = false) : d.startOf (join left right) = d.startOf left := by
  rw [startOf, startOf, isAbsolute_join left h]

theorem led_join (h : IsPlain right) :
    d.led (join left right) = d.led left ++ Text.split '/' right := by
  obtain ⟨above, hsplit, hleft⟩ := split_join left h.isAbsolute
  have habove : pointed (d.startOf left) above = d.led left := by
    rcases hleft with hleft | hleft <;> rw [led, hleft]
    rw [pointed_append]
    rfl
  rw [led, hsplit, startOf_join h.isAbsolute, pointed_append, habove, pointed_names h]

/-- What is on the way of a plain path below a directory is on the way to the directory, or below
it. -/
theorem mem_way_join (h : IsPlain right) {p : Place} (hp : p ∈ d.way (join left right)) :
    p ∈ d.way left ∨ d.led left <+: p := by
  obtain ⟨above, hsplit, hleft⟩ := split_join left h.isAbsolute
  rw [way, hsplit, startOf_join h.isAbsolute] at hp
  rcases mem_passed_append hp with hp | hp
  · left
    rcases hleft with hleft | hleft <;> rw [way, hleft]
    · exact hp
    · exact passed_subset_append _ _ _ p hp
  · right
    have hprefix := isPrefix_of_mem_passed h hp
    rcases hleft with hleft | hleft <;> rw [led, hleft]
    · exact hprefix
    · rw [pointed_append]
      exact hprefix

end Disk

/-! ## Names of roots -/

namespace Target

/-- A name that a bundle is saved under: that of the project, or a plain path. -/
def IsRootName (root : String) : Prop := root = "." ∨ IsPlain root.toList ∧ '\\' ∉ root.toList

instance (root : String) : Decidable (IsRootName root) := inferInstanceAs (Decidable (_ ∨ _ ∧ _))

/-- The path of the bundle below the output directory, without its ending. -/
def stem (root : String) : List Char := if root = "." then "index".toList else root.toList

theorem IsRootName.isPlain_stem {root : String} (h : IsRootName root) : IsPlain (stem root) := by
  unfold stem
  split
  · decide
  · rename_i hne
    exact (h.resolve_left hne).1

theorem lastSegment_append {dir file : List Char} (h : '/' ∉ file) :
    lastSegment (dir ++ '/' :: file) = file := by
  simp [lastSegment, List.takeWhile_append_of_pos (ModuleName.bne_of_mem_reverse h)]

theorem lastSegment_of_not_mem {file : List Char} (h : '/' ∉ file) : lastSegment file = file := by
  have hf : file.reverse.takeWhile (· != '/') = file.reverse :=
    List.takeWhile_eq_self_iff.2 (ModuleName.bne_of_mem_reverse h)
  rw [lastSegment, hf, List.reverse_reverse]

/-- The target of a root name is what its stem says. -/
theorem forRoot_eq {root : String} (h : IsRootName root) (options : Options) :
    Target.forRoot root options =
      { id := options.bundlesBaseUrl ++ "/" ++ String.ofList (stem root)
        dir := if ModuleName.above (stem root) = [] then options.dest
          else String.ofList (join options.dest.toList (ModuleName.above (stem root)))
        filename := String.ofList (lastSegment (stem root)) ++ ".js" } := by
  rcases h with rfl | ⟨hplain, hback⟩
  · have hid : options.bundlesBaseUrl ++ "/index" = options.bundlesBaseUrl ++ "/" ++ "index" := by
      rw [String.append_assoc]
      rfl
    exact congrArg (Target.mk · options.dest "index.js") hid
  · have hstem : stem root = root.toList := by
      rw [stem, if_neg]
      rintro rfl
      exact not_isPlain_here hplain
    have hreplace : Text.replaceChar '\\' '/' root.toList = root.toList := by
      refine (List.map_congr_left ?_).trans (List.map_id _)
      intro c hc
      have hne : c ≠ '\\' := fun e => hback (e ▸ hc)
      exact if_neg hne
    have hdrop : Text.dropTrailing (· == '/') root.toList = root.toList := by
      refine Disk.dropTrailing_of_getLast fun c hc => ?_
      rw [beq_eq_false_iff_ne]
      rintro rfl
      obtain ⟨init, hinit⟩ := List.getLast?_eq_some_iff.1 hc
      rw [hinit] at hplain
      exact not_isPlain_nil (isPlain_append_iff.1 hplain).2
    have hproject : ModuleName.isProject root.toList = false := by
      simp [ModuleName.isProject, hplain.ne_nil, hplain.ne_here]
    rw [Target.forRoot, trimmedRoot, hreplace, hdrop, hproject, hstem]
    rfl

theorem id_eq_iff_stem {root root' : String} (h : IsRootName root) (h' : IsRootName root')
    (options : Options) : (Target.forRoot root options).id = (Target.forRoot root' options).id ↔
      stem root = stem root' := by
  rw [forRoot_eq h, forRoot_eq h']
  simp only [String.append_right_inj, String.ofList_inj]

/-! ## The files of a root -/

/-- A file name of a bundle: the last name of the stem with an ending. -/
theorem isPlain_stem_append {path ending : List Char} (h : IsPlain path)
    (hslash : '/' ∉ ending) (hlong : 2 ≤ ending.length) : IsPlain (path ++ ending) := by
  have hname : ∀ file : List Char, '/' ∉ file → IsPlain file → IsPlain (file ++ ending) := by
    intro file hfile hplain piece hpiece
    have hmem : '/' ∉ file ++ ending := by simp [hfile, hslash]
    rw [Text.split_of_not_mem hmem, List.mem_singleton] at hpiece
    subst hpiece
    have hpos := List.length_pos_iff.2 hplain.ne_nil
    have hlength : 3 ≤ (file ++ ending).length := by
      rw [List.length_append]
      omega
    refine ⟨?_, ?_, ?_⟩ <;> intro he <;> rw [he] at hlength <;> simp at hlength
  rcases ModuleName.path_cases path with hfile | ⟨dir, file, rfl, hfile⟩
  · exact hname path hfile h
  · rw [isPlain_append_iff] at h
    rw [List.append_assoc, List.cons_append, isPlain_append_iff]
    exact ⟨h.1, hname file hfile h.2⟩

variable {d : Disk} {options : Options} {root root' : String}

/-- A file beside the bundle of a root: what the stem leads to, with an ending. -/
def file (options : Options) (root : String) (ending : List Char) : List Char :=
  join (Target.forRoot root options).dir.toList (lastSegment (stem root) ++ ending)

theorem path_eq (h : IsRootName root) :
    (Target.forRoot root options).path.toList = file options root ".js".toList := by
  rw [Target.path, file, forRoot_eq h]
  simp

theorem mapPath_eq (h : IsRootName root) :
    (Target.forRoot root options).mapPath.toList = file options root ".js.map".toList := by
  rw [Target.mapPath, Target.mapFilename, file, forRoot_eq h]
  simp

/-- A file of a root is what a plain path leads to below the output directory. -/
theorem file_cases (h : IsRootName root) (ending : List Char) :
    file options root ending = join options.dest.toList (stem root ++ ending) ∨
      ∃ dir name, stem root ++ ending = dir ++ '/' :: (name ++ ending) ∧
        file options root ending = join (join options.dest.toList dir) (name ++ ending) := by
  rw [file, forRoot_eq h]
  rcases ModuleName.path_cases (stem root) with hname | ⟨dir, name, hstem, hname⟩
  · left
    simp [ModuleName.above_of_not_mem hname, lastSegment_of_not_mem hname]
  · right
    refine ⟨dir, name, by rw [hstem]; simp, ?_⟩
    have hdir : dir ≠ [] := by
      have hplain := h.isPlain_stem
      rw [hstem, isPlain_append_iff] at hplain
      exact hplain.1.ne_nil
    rw [hstem, ModuleName.above_append hname, lastSegment_append hname, if_neg hdir]
    simp

section Ending

variable {ending ending' : List Char}

theorem led_file (h : IsRootName root) (hslash : '/' ∉ ending) (hlong : 2 ≤ ending.length) :
    d.led (file options root ending) =
      d.led options.dest.toList ++ Text.split '/' (stem root ++ ending) := by
  have hplain := isPlain_stem_append h.isPlain_stem hslash hlong
  rcases file_cases h ending with hfile | ⟨dir, name, hstem, hfile⟩ <;> rw [hfile]
  · exact Disk.led_join hplain
  · rw [hstem, isPlain_append_iff] at hplain
    rw [Disk.led_join hplain.2, Disk.led_join hplain.1, hstem, Text.split_append, List.append_assoc]

/-- The way to a file of a root is the way to the output directory, and then below it. -/
theorem mem_way_file (h : IsRootName root) (hslash : '/' ∉ ending) (hlong : 2 ≤ ending.length)
    {p : Place} (hp : p ∈ d.way (file options root ending)) :
    p ∈ d.way options.dest.toList ∨ d.led options.dest.toList <+: p := by
  have hplain := isPlain_stem_append h.isPlain_stem hslash hlong
  rcases file_cases h ending with hfile | ⟨dir, name, hstem, hfile⟩ <;> rw [hfile] at hp
  · exact Disk.mem_way_join hplain hp
  · rw [hstem, isPlain_append_iff] at hplain
    rcases Disk.mem_way_join hplain.2 hp with hp | hp
    · exact Disk.mem_way_join hplain.1 hp
    · rw [Disk.led_join hplain.1] at hp
      exact .inr ((List.prefix_append _ _).trans hp)

/-- What is written at the path of a file stands where the path leads. -/
theorem written_file (h : IsRootName root) (hslash : '/' ∉ ending) (hlong : 2 ≤ ending.length) :
    d.written (file options root ending) = d.led (file options root ending) := by
  have hplain := isPlain_stem_append h.isPlain_stem hslash hlong
  have hend : ∃ lead, file options root ending = lead ++ ending := by
    rcases file_cases h ending with hfile | ⟨dir, name, hstem, hfile⟩ <;> rw [hfile]
    · obtain ⟨lead, hlead⟩ := join_eq_append options.dest.toList hplain.isAbsolute
      exact ⟨lead ++ stem root, by rw [hlead, List.append_assoc]⟩
    · rw [hstem, isPlain_append_iff] at hplain
      obtain ⟨lead, hlead⟩ := join_eq_append (join options.dest.toList dir) hplain.2.isAbsolute
      exact ⟨lead ++ name, by rw [hlead, List.append_assoc]⟩
  obtain ⟨lead, hlead⟩ := hend
  rw [Disk.written, Disk.led, Disk.dropTrailing_of_getLast]
  intro c hc
  have hne : ending ≠ [] := by
    rintro rfl
    simp at hlong
  rw [hlead, List.getLast?_append, List.getLast?_eq_some_getLast hne, Option.some_or,
    Option.some.injEq] at hc
  rw [beq_eq_false_iff_ne]
  rintro rfl
  exact hslash (hc ▸ List.getLast_mem hne)

theorem led_file_inj (h : IsRootName root) (h' : IsRootName root') (hslash : '/' ∉ ending)
    (hlong : 2 ≤ ending.length) (hslash' : '/' ∉ ending') (hlong' : 2 ≤ ending'.length)
    (he : d.led (file options root ending) = d.led (file options root' ending')) :
    stem root ++ ending = stem root' ++ ending' := by
  rw [led_file h hslash hlong, led_file h' hslash' hlong', List.append_cancel_left_eq] at he
  rw [← Text.join_split '/' (stem root ++ ending), he, Text.join_split]

end Ending

theorem written_path (h : IsRootName root) :
    d.written (Target.forRoot root options).path.toList =
      d.led (Target.forRoot root options).path.toList := by
  rw [path_eq h, written_file h (by decide) (by decide)]

theorem written_mapPath (h : IsRootName root) :
    d.written (Target.forRoot root options).mapPath.toList =
      d.led (Target.forRoot root options).mapPath.toList := by
  rw [mapPath_eq h, written_file h (by decide) (by decide)]

theorem led_path_inj (h : IsRootName root) (h' : IsRootName root')
    (he : d.led (Target.forRoot root options).path.toList =
      d.led (Target.forRoot root' options).path.toList) : stem root = stem root' := by
  rw [path_eq h, path_eq h'] at he
  exact List.append_cancel_right
    (led_file_inj h h' (by decide) (by decide) (by decide) (by decide) he)

theorem led_mapPath_inj (h : IsRootName root) (h' : IsRootName root')
    (he : d.led (Target.forRoot root options).mapPath.toList =
      d.led (Target.forRoot root' options).mapPath.toList) : stem root = stem root' := by
  rw [mapPath_eq h, mapPath_eq h'] at he
  exact List.append_cancel_right
    (led_file_inj h h' (by decide) (by decide) (by decide) (by decide) he)

theorem led_path_ne_led_mapPath (h : IsRootName root) (h' : IsRootName root') :
    d.led (Target.forRoot root options).path.toList ≠
      d.led (Target.forRoot root' options).mapPath.toList := by
  intro he
  rw [path_eq h, mapPath_eq h'] at he
  have hends := congrArg List.getLast?
    (led_file_inj h h' (by decide) (by decide) (by decide) (by decide) he)
  have hs : ".js".toList.getLast? = some 's' := by decide
  have hp : ".js.map".toList.getLast? = some 'p' := by decide
  rw [List.getLast?_append, List.getLast?_append, hs, hp] at hends
  cases hends

end Target

end BundleLedger
