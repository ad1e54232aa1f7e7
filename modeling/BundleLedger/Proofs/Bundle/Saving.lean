import BundleLedger.Proofs.Bundle.Places

/-!
# What a save leaves on the disk

A save makes directories, writes the source map, and then the bundle. When it succeeds, both files
read back as what was written, for neither is in the place of the other. When it fails, all that
stood before stands as before, unless the map was replaced and then the bundle could not be written.

Results:

* `write_ok`: after a success the files of the target hold the bundle.
* `write_error_cases`: what a failure leaves.
* `save_keeps`: a save replaces no files but those of its own target.
* `save_cases`: what a save comes to.
* `save_keeps_written`: a save replaces no file but those that it did write.
-/
namespace BundleLedger

namespace Bundle

open Disk Target

variable {d d' : Disk} {target : Target} {b : Bundle} {options : Options}

/-! ## Writing the files -/

/-- The files of a target hold the text of a bundle, and its source map if there is one. -/
structure Holds (d : Disk) (target : Target) (source : String) (map? : Option String) : Prop where
  bundle : d.readText target.path =
    .ok (if map?.isSome then source ++ mapReference target else source)
  map : ∀ map, map? = some map → d.readText target.mapPath = .ok map

/-- Where the bundle of a target is there to be read, it can be written again. -/
def Overwrites (target : Target) (b : Bundle) (options : Options) (d : Disk) : Prop :=
  ∀ text, d.readText target.path = .ok text →
    ∀ error, (write target b options d).1 ≠ .error (.write target.path error)

theorem makeDirectory_keeps (d : Disk) (target : Target) : Keeps [] d (makeDirectory target d).2 := by
  have h := makeDirectories_keeps d target.dir
  unfold makeDirectory
  split <;> rename_i heq <;> rw [heq] at h <;> exact h

theorem writeFile_keeps (d : Disk) (path text : String) :
    Keeps [d.written path.toList] d (writeFile path text d).2 := by
  have h := Disk.write_keeps d path text
  unfold writeFile
  split <;> rename_i heq <;> rw [heq] at h <;> exact h

theorem writeFile_ok {path text : String} (h : writeFile path text d = (.ok (), d')) :
    d'.readText path = .ok text := by
  unfold writeFile at h
  split at h
  · rename_i heq
    cases h
    exact readText_of_write heq
  · cases h

theorem writeFile_error {path text : String} {e : Failure}
    (h : writeFile path text d = (.error e, d')) : Keeps [] d d' ∧ ∃ error, e = .write path error := by
  unfold writeFile at h
  split at h
  · cases h
  · rename_i error d₁ heq
    cases h
    exact ⟨write_error_keeps heq, error.message, rfl⟩

/-- The map still reads back after the bundle was written, as it stands in another place. -/
theorem writeFiles_ok {source : String} {map? : Option String}
    (hne : d.led target.mapPath.toList ≠ d.written target.path.toList)
    (h : writeFiles target source map? d = (.ok (), d')) : Holds d' target source map? := by
  unfold writeFiles at h
  split at h
  · exact ⟨writeFile_ok h, fun map hmap => by cases hmap⟩
  · rename_i map
    split at h
    · cases h
    · rename_i d₁ hmap
      have hkeeps := writeFile_keeps d target.mapPath map
      have hkeeps' := writeFile_keeps d₁ target.path (source ++ mapReference target)
      rw [hmap] at hkeeps
      rw [h] at hkeeps'
      refine ⟨writeFile_ok h, ?_⟩
      intro map' heq
      cases heq
      refine hkeeps'.readText ?_ (writeFile_ok hmap)
      rw [List.mem_singleton, led_congr hkeeps.workingDir, written_congr hkeeps.workingDir]
      exact hne

/-- The files of a target take the places of no others. -/
theorem writeFiles_keeps (d : Disk) (target : Target) (source : String) (map? : Option String) :
    Keeps [d.written target.path.toList, d.written target.mapPath.toList] d
      (writeFiles target source map? d).2 := by
  unfold writeFiles
  split
  · exact (writeFile_keeps d _ _).mono (by simp)
  · rename_i map
    have hm : Keeps [d.written target.path.toList, d.written target.mapPath.toList] d
        (writeFile target.mapPath map d).2 := (writeFile_keeps d _ _).mono (by simp)
    split
    · rename_i heq
      rw [heq] at hm
      exact hm
    · rename_i d₁ heq
      rw [heq] at hm
      have hb := writeFile_keeps d₁ target.path (source ++ mapReference target)
      rw [written_congr hm.workingDir] at hb
      exact hm.trans (hb.mono (by simp))

/-- Files that could not be written: nothing was replaced, or the bundle is what failed. -/
theorem writeFiles_error {source : String} {map? : Option String} {e : Failure}
    (h : writeFiles target source map? d = (.error e, d')) :
    Keeps [] d d' ∨ ∃ error, e = .write target.path error := by
  unfold writeFiles at h
  split at h
  · exact .inl (writeFile_error h).1
  · split at h
    · rename_i hmap
      cases h
      exact .inl (writeFile_error hmap).1
    · exact .inr (writeFile_error h).2

theorem writeFiles_error_kind {source : String} {map? : Option String} {e : Failure}
    (h : writeFiles target source map? d = (.error e, d')) : ∃ path error, e = .write path error := by
  unfold writeFiles at h
  split at h
  · exact ⟨_, (writeFile_error h).2⟩
  · split at h
    · rename_i hmap
      cases h
      exact ⟨_, (writeFile_error hmap).2⟩
    · exact ⟨_, (writeFile_error h).2⟩

/-! ## Writing a bundle -/

/-- When a map is written, and what it says. -/
theorem mapText?_ok {workingDir : List Char} {map? : Option String}
    (h : mapText? target b options workingDir = .ok map?) :
    (map?.isSome = true ↔ options.sourceMaps = true ∧ b.sourceMap.isSome = true) ∧
      ∀ map, options.sourceMaps = true → b.sourceMap = some map → ∃ text, map? = some text ∧
        if options.relativeSourceMaps then
          SourceMap.relocate? map (String.ofList (FilePath.prefixBetween workingDir
            target.dir.toList options.baseUrl.toList)) = some text
        else text = map := by
  unfold mapText? at h
  cases hs : options.sourceMaps with
  | false =>
    simp only [hs, Bool.not_false, if_true, Except.ok.injEq] at h
    simp [← h]
  | true =>
    simp only [hs, Bool.not_true, Bool.false_eq_true, if_false] at h
    cases hm : b.sourceMap with
    | none =>
      simp only [hm, Except.ok.injEq] at h
      simp [← h]
    | some map =>
      simp only [hm] at h
      cases hr : options.relativeSourceMaps with
      | false =>
        simp only [hr, Bool.not_false, if_true, Except.ok.injEq] at h
        simp [← h]
      | true =>
        simp only [hr, Bool.not_true, Bool.false_eq_true, if_false] at h
        split at h
        · rename_i text hrelocated
          simp only [Except.ok.injEq] at h
          simp [← h, hrelocated]
        · cases h

theorem mapText?_error {workingDir : List Char} {e : Failure}
    (h : mapText? target b options workingDir = .error e) : ∃ detail, e = .sourceMap detail := by
  unfold mapText? at h
  split at h
  · cases h
  · split at h
    · cases h
    · split at h
      · cases h
      · dsimp only at h
        split at h
        · cases h
        · cases h
          exact ⟨_, rfl⟩

theorem mapText?_congr (target : Target) (b : Bundle) (options : Options)
    (hwd : d'.workingDir = d.workingDir) :
    mapText? target b options d'.workingPath = mapText? target b options d.workingPath := by
  rw [workingPath, workingPath, hwd]

theorem write_ok (hne : d.led target.mapPath.toList ≠ d.written target.path.toList)
    (h : write target b options d = (.ok (), d')) :
    ∃ map?, mapText? target b options d.workingPath = .ok map? ∧ Holds d' target b.source map? := by
  have hdir := makeDirectory_keeps d target
  unfold write at h
  split at h
  · cases h
  · rename_i d₁ heq
    rw [heq] at hdir
    rw [mapText?_congr target b options hdir.workingDir] at h
    split at h
    · cases h
    · rename_i map? hmap
      refine ⟨map?, hmap, writeFiles_ok ?_ h⟩
      rw [led_congr hdir.workingDir, written_congr hdir.workingDir]
      exact hne

/-- A bundle that could not be written: nothing was replaced, or the bundle file is what failed. -/
theorem write_error_cases {e : Failure} (h : write target b options d = (.error e, d')) :
    Keeps [] d d' ∨ ∃ error, e = .write target.path error := by
  have hdir := makeDirectory_keeps d target
  unfold write at h
  split at h
  · rename_i heq
    cases h
    rw [heq] at hdir
    exact .inl hdir
  · rename_i d₁ heq
    rw [heq] at hdir
    split at h
    · cases h
      exact .inl hdir
    · exact (writeFiles_error h).imp_left hdir.trans

/-- Writing a bundle replaces no file but those of its target. -/
theorem write_keeps (d : Disk) (target : Target) (b : Bundle) (options : Options) :
    Keeps [d.written target.path.toList, d.written target.mapPath.toList] d
      (write target b options d).2 := by
  have hdir := makeDirectory_keeps d target
  unfold write
  split
  · rename_i heq
    rw [heq] at hdir
    exact hdir.mono (by simp)
  · rename_i d₁ heq
    rw [heq] at hdir
    split
    · exact hdir.mono (by simp)
    · rename_i map? _
      have hfiles := writeFiles_keeps d₁ target b.source map?
      rw [written_congr hdir.workingDir, written_congr hdir.workingDir] at hfiles
      exact (hdir.mono (by simp)).trans hfiles

/-- A bundle that could not be written is no failure of the engine. -/
theorem write_ne_engine (d : Disk) (target : Target) (b : Bundle) (options : Options)
    (failure : EngineFailure) : (write target b options d).1 ≠ .error (.engine failure) := by
  unfold write
  split
  · rename_i heq
    unfold makeDirectory at heq
    split at heq <;> cases heq
    simp
  · rename_i d₁ _
    split
    · rename_i hmap
      obtain ⟨detail, rfl⟩ := mapText?_error hmap
      simp
    · rename_i map? _
      cases hfiles : writeFiles target b.source map? d₁ with
      | mk outcome d' =>
        cases outcome with
        | ok => simp
        | error e =>
          obtain ⟨path, error, rfl⟩ := writeFiles_error_kind hfiles
          simp

/-! ## Saving a bundle -/

variable {c c' : LoaderConfig} {root : String}

theorem save_keeps (d : Disk) (root : String) (b : Bundle) (options : Options) (c : LoaderConfig) :
    Keeps [d.written (Target.forRoot root options).path.toList,
      d.written (Target.forRoot root options).mapPath.toList] d (b.save root options c d).2.2 := by
  have h := write_keeps d (Target.forRoot root options) b options
  unfold save
  split
  · exact .refl _ d
  · dsimp only
    split <;> rename_i heq <;> rw [heq] at h <;> exact h

/-- What a save comes to: there was nothing to save, or it failed, or the bundle was written and
entered in the ledger. -/
theorem save_cases (d : Disk) (root : String) (b : Bundle) (options : Options) (c : LoaderConfig) :
    b.save root options c d = (.ok none, c, d) ∨
      (∃ e d', write (Target.forRoot root options) b options d = (.error e, d') ∧
        b.save root options c d = (.error e, c, d')) ∨
      ∃ d', write (Target.forRoot root options) b options d = (.ok (), d') ∧
        b.save root options c d = (.ok (some (Target.forRoot root options)),
          c.register (Target.forRoot root options).id b.modules, d') := by
  unfold save
  split
  · exact .inl rfl
  · dsimp only
    split
    · rename_i e d' heq
      exact .inr (.inl ⟨e, d', heq, rfl⟩)
    · rename_i d' heq
      exact .inr (.inr ⟨d', heq, rfl⟩)

/-! ## The files of one save -/

def fileWritten (path text : String) (d : Disk) : List String :=
  if (writeFile path text d).1.toBool then [path] else []

def filesWritten (target : Target) (source : String) (map? : Option String) (d : Disk) :
    List String :=
  match map? with
  | none => fileWritten target.path source d
  | some map =>
    match writeFile target.mapPath map d with
    | (.error _, _) => []
    | (.ok (), d) => target.mapPath :: fileWritten target.path (source ++ mapReference target) d

/-- The paths of the files that a save writes. One that fails half way has written its map. -/
def saveWritten (root : String) (b : Bundle) (options : Options) (d : Disk) : List String :=
  if b.isEmpty then []
  else
    match makeDirectory (Target.forRoot root options) d with
    | (.error _, _) => []
    | (.ok (), d) =>
      match mapText? (Target.forRoot root options) b options d.workingPath with
      | .error _ => []
      | .ok map? => filesWritten (Target.forRoot root options) b.source map? d

def placesOf (d : Disk) (files : List String) : List Place :=
  files.map fun file => d.written file.toList

theorem placesOf_congr (hwd : d'.workingDir = d.workingDir) (files : List String) :
    placesOf d' files = placesOf d files :=
  List.map_congr_left fun file _ => written_congr hwd file.toList

theorem writeFile_keeps_written (d : Disk) (path text : String) :
    Keeps (placesOf d (fileWritten path text d)) d (writeFile path text d).2 := by
  have hkeeps := writeFile_keeps d path text
  unfold fileWritten
  rcases h : writeFile path text d with ⟨e | _, d'⟩
  · exact (writeFile_error h).1
  · rw [h] at hkeeps
    exact hkeeps

theorem writeFiles_keeps_written (d : Disk) (target : Target) (source : String)
    (map? : Option String) :
    Keeps (placesOf d (filesWritten target source map? d)) d (writeFiles target source map? d).2 := by
  unfold writeFiles filesWritten
  cases map? with
  | none => exact writeFile_keeps_written d _ _
  | some map =>
    have hm := writeFile_keeps d target.mapPath map
    rcases h : writeFile target.mapPath map d with ⟨e | _, d₁⟩ <;> rw [h] at hm <;> simp only [h]
    · exact (writeFile_error h).1
    · have hb := writeFile_keeps_written d₁ target.path (source ++ mapReference target)
      rw [placesOf_congr hm.workingDir] at hb
      refine (hm.mono fun p hp => ?_).trans (hb.mono fun p hp => List.mem_cons_of_mem _ hp)
      rw [List.mem_singleton.1 hp]
      exact List.mem_cons_self

/-- A save replaces no file but those that it writes. -/
theorem save_keeps_written (d : Disk) (root : String) (b : Bundle) (options : Options)
    (c : LoaderConfig) :
    Keeps (placesOf d (saveWritten root b options d)) d (b.save root options c d).2.2 := by
  have hdir := makeDirectory_keeps d (Target.forRoot root options)
  have hsave : (b.save root options c d).2.2 =
      if b.isEmpty then d else (write (Target.forRoot root options) b options d).2 := by
    unfold save
    split
    · rfl
    · dsimp only
      split <;> rename_i heq <;> rw [heq]
  rw [hsave]
  unfold saveWritten
  split
  · exact .refl _ d
  · unfold write
    rcases h : makeDirectory (Target.forRoot root options) d with ⟨e | _, d₁⟩ <;> rw [h] at hdir
    · exact hdir.mono (by simp)
    · dsimp only
      cases mapText? (Target.forRoot root options) b options d₁.workingPath with
      | error e => exact hdir.mono (by simp)
      | ok map? =>
        have hfiles := writeFiles_keeps_written d₁ (Target.forRoot root options) b.source map?
        rw [placesOf_congr hdir.workingDir] at hfiles
        exact (hdir.mono (by simp)).trans hfiles

end Bundle

end BundleLedger
