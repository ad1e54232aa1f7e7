import BundleLedger.Proofs.Bundle.Saving
import BundleLedger.Proofs.Ledger

/-!
# A save does all of it or nothing

A save can end in three ways. There is nothing to save, and nothing happens. It succeeds, and then the
bundle, its source map and the ledger say the same. Or it fails, wherever that is: the ledger is as
it was, and so is every file but the source map, which is written before the bundle.

Nothing is asked of the root. Whatever it is, the name of the bundle is a name with `.js` behind it,
so both files lie straight in the directory of the target and apart from each other.

A write that fails leaves its file as it was (`Disk.write_error`); only directories may have come to
be (`Touches`).

Results:

* `makeDirectories_touches`: making directories changes no file, and makes none.
* `led_path_forRoot` and `mapPlace_ne_place`: where the bundle lies, apart from its map.
* `save_all_or_nothing`: the three ways.
-/
namespace BundleLedger

open FilePath

/-! ## Files that are touched -/

namespace Disk

variable {d d' d'' : Disk} {places : List Place}

/-- Beside `places` nothing happened but that directories came to be where nothing stood. -/
structure Touches (places : List Place) (d d' : Disk) : Prop where
  workingDir : d'.workingDir = d.workingDir
  elsewhere : ∀ p, p ∉ places → d'.node? p = d.node? p ∨
    d.node? p = none ∧ d'.node? p = some .directory

theorem Touches.refl (places : List Place) (d : Disk) : Touches places d d :=
  ⟨rfl, fun _ _ => .inl rfl⟩

theorem Touches.trans (h : Touches places d d') (h' : Touches places d' d'') :
    Touches places d d'' := by
  refine ⟨h'.workingDir.trans h.workingDir, fun p hp => ?_⟩
  rcases h.elsewhere p hp with he | ⟨hnone, hdir⟩ <;>
    rcases h'.elsewhere p hp with he' | ⟨hnone', hdir'⟩
  · exact .inl (he'.trans he)
  · exact .inr ⟨he ▸ hnone', hdir'⟩
  · exact .inr ⟨hnone, he'.trans hdir⟩
  · rw [hdir] at hnone'
    cases hnone'

theorem Touches.mono {more : List Place} (h : Touches places d d') (hs : ∀ p ∈ places, p ∈ more) :
    Touches more d d' :=
  ⟨h.workingDir, fun p hp => h.elsewhere p fun hm => hp (hs p hm)⟩

theorem Extends.touches (h : Extends places d d') : Touches places d d' :=
  ⟨h.workingDir, fun p hp => .inl (h.elsewhere p hp)⟩

/-- A file that is not among `places` is there or not as it was, with the same content. -/
theorem Touches.file_iff (h : Touches places d d') {p : Place} (hp : p ∉ places) (content : Content)
    (executable : Bool) : d'.node? p = some (.file content executable) ↔
      d.node? p = some (.file content executable) := by
  rcases h.elsewhere p hp with he | ⟨hnone, hdir⟩
  · rw [he]
  · rw [hnone, hdir]
    constructor <;> intro hf <;> cases hf

theorem Touches.standing (h : Touches places d d') {p : Place} (hp : p ∉ places)
    (hs : (d.node? p).isSome) : d'.node? p = d.node? p := by
  rcases h.elsewhere p hp with he | ⟨hnone, -⟩
  · exact he
  · rw [hnone] at hs
    cases hs

theorem makeDirectory_touches {path : List Char} (h : d.makeDirectory path = .ok d') :
    Touches [] d d' := by
  unfold makeDirectory at h
  split at h
  · cases h
  · cases h
  · split at h
    · cases h
    · rename_i hnode
      cases h
      refine ⟨rfl, fun p _ => ?_⟩
      rcases eq_or_ne p [] with rfl | hnil
      · exact .inl rfl
      · rw [node?_put d _ hnil]
        split
        · rename_i hp
          exact .inr ⟨hp ▸ hnode, rfl⟩
        · exact .inl rfl

theorem makeDirectories_touches (d : Disk) (path : String) :
    Touches [] d (d.makeDirectories path).2 := by
  have ha : Touches [] d d.attempt.2 := (attempt_extends d).touches
  unfold makeDirectories
  split
  · rename_i heq
    rw [heq] at ha
    exact ha
  · rename_i d₁ heq
    rw [heq] at ha
    exact ha.trans (makeChain_trans (R := Touches []) (.refl []) Touches.trans
      (fun _ _ _ => makeDirectory_touches) d₁)

theorem write_error_touches {path text : String} {e : OsError}
    (h : d.write path text = (.error e, d')) : Touches [] d d' := by
  have hext := write_extends d path text
  rw [h] at hext
  exact (extends_of_nodes (write_error h) hext.workingDir).touches

/-! ## Names in a directory -/

theorem isPlain_name {name : List Char} (hslash : '/' ∉ name) (hlong : 3 ≤ name.length) :
    IsPlain name := by
  intro piece hpiece
  rw [Text.split_of_not_mem hslash, List.mem_singleton] at hpiece
  subst hpiece
  refine ⟨?_, ?_, ?_⟩ <;> rintro rfl <;> simp at hlong

theorem led_join_name {dir name : List Char} (hslash : '/' ∉ name) (hlong : 3 ≤ name.length) :
    d.led (join dir name) = d.led dir ++ [name] := by
  rw [led_join (isPlain_name hslash hlong), Text.split_of_not_mem hslash]

theorem written_join_name {dir name : List Char} (hslash : '/' ∉ name) (hlong : 3 ≤ name.length) :
    d.written (join dir name) = d.led dir ++ [name] := by
  have hplain := isPlain_name hslash hlong
  obtain ⟨lead, hlead⟩ := join_eq_append dir hplain.isAbsolute
  have hend : Text.dropTrailing (· == '/') (join dir name) = join dir name := by
    refine dropTrailing_of_getLast fun c hc => ?_
    rw [hlead, List.getLast?_append, List.getLast?_eq_some_getLast hplain.ne_nil, Option.some_or,
      Option.some.injEq] at hc
    rw [beq_eq_false_iff_ne]
    rintro rfl
    exact hslash (hc ▸ List.getLast_mem hplain.ne_nil)
  rw [written, hend]
  exact led_join_name hslash hlong

end Disk

namespace Target

open Disk

def place (d : Disk) (t : Target) : Place := d.led t.dir.toList ++ [t.filename.toList]

def mapPlace (d : Disk) (t : Target) : Place := d.led t.dir.toList ++ [t.mapFilename.toList]

variable (root : String) (options : Options) {d : Disk}

theorem slash_not_mem_lastSegment (name : List Char) : '/' ∉ lastSegment name := by
  rw [lastSegment, List.mem_reverse]
  intro h
  simpa using List.all_eq_true.1 (List.all_takeWhile (p := (· != '/'))) _ h

/-- Whatever the root is, the bundle has a name in the directory of the target. -/
theorem filename_forRoot : ∃ name, '/' ∉ name ∧
    (forRoot root options).filename.toList = name ++ ".js".toList := by
  unfold forRoot
  dsimp only
  split
  · have hindex : "index.js".toList = "index".toList ++ ".js".toList := by decide
    exact ⟨"index".toList, by decide, hindex⟩
  · exact ⟨lastSegment (trimmedRoot root), slash_not_mem_lastSegment _, by simp⟩

theorem led_path_forRoot :
    d.led (forRoot root options).path.toList = (forRoot root options).place d := by
  obtain ⟨name, hslash, hname⟩ := filename_forRoot root options
  rw [path, String.toList_ofList, place, hname]
  exact led_join_name (by simpa using hslash) (by simp)

theorem written_path_forRoot :
    d.written (forRoot root options).path.toList = (forRoot root options).place d := by
  obtain ⟨name, hslash, hname⟩ := filename_forRoot root options
  rw [path, String.toList_ofList, place, hname]
  exact written_join_name (by simpa using hslash) (by simp)

theorem led_mapPath_forRoot :
    d.led (forRoot root options).mapPath.toList = (forRoot root options).mapPlace d := by
  obtain ⟨name, hslash, hname⟩ := filename_forRoot root options
  rw [mapPath, String.toList_ofList, mapPlace, mapFilename, String.toList_append, hname]
  exact led_join_name (by simpa using hslash) (by simp)

theorem written_mapPath_forRoot :
    d.written (forRoot root options).mapPath.toList = (forRoot root options).mapPlace d := by
  obtain ⟨name, hslash, hname⟩ := filename_forRoot root options
  rw [mapPath, String.toList_ofList, mapPlace, mapFilename, String.toList_append, hname]
  exact written_join_name (by simpa using hslash) (by simp)

theorem mapPlace_ne_place (t : Target) : t.mapPlace d ≠ t.place d := by
  intro h
  have hlengths := congrArg List.length (List.singleton_inj.1 (List.append_cancel_left h))
  rw [mapFilename, String.toList_append, List.length_append] at hlengths
  simp at hlengths

end Target

namespace Bundle

open Disk

variable {d d' : Disk} {target : Target} {b : Bundle} {options : Options}

def mapDue (options : Options) (b : Bundle) : Bool := options.sourceMaps && b.sourceMap.isSome

def mapPlaces (d : Disk) (target : Target) (due : Bool) : List Place :=
  if due then [d.written target.mapPath.toList] else []

theorem mapPlaces_congr (hwd : d'.workingDir = d.workingDir) (target : Target) (due : Bool) :
    mapPlaces d' target due = mapPlaces d target due := by
  rw [mapPlaces, mapPlaces, written_congr hwd]

/-! ## What is touched -/

theorem makeDirectory_touches (d : Disk) (target : Target) :
    Touches [] d (makeDirectory target d).2 := by
  have h := makeDirectories_touches d target.dir
  unfold makeDirectory
  split <;> rename_i heq <;> rw [heq] at h <;> exact h

theorem writeFile_error_touches {path text : String} {e : Failure}
    (h : writeFile path text d = (.error e, d')) : Touches [] d d' := by
  unfold writeFile at h
  split at h
  · cases h
  · rename_i heq
    cases h
    exact write_error_touches heq

theorem writeFiles_touches {source : String} {map? : Option String} {result : Except Failure Unit}
    (h : writeFiles target source map? d = (result, d')) :
    Touches (if result.toBool then d.written target.path.toList :: mapPlaces d target map?.isSome
      else mapPlaces d target map?.isSome) d d' := by
  have hbundle : ∀ {d₁ text}, writeFile target.path text d₁ = (result, d') →
      Touches (if result.toBool then [d₁.written target.path.toList] else []) d₁ d' := by
    intro d₁ text hwrite
    have hext := (writeFile_extends d₁ target.path text).touches
    rw [hwrite] at hext
    cases result with
    | ok => exact hext
    | error e => exact writeFile_error_touches hwrite
  unfold writeFiles at h
  split at h
  · exact hbundle h
  · rename_i map
    have hmap := (writeFile_extends d target.mapPath map).touches
    split at h
    · rename_i heq
      cases h
      exact (writeFile_error_touches heq).mono (by simp)
    · rename_i d₁ heq
      rw [heq] at hmap
      have hboth := hbundle h
      rw [written_congr hmap.workingDir] at hboth
      refine (hmap.mono fun p hp => ?_).trans (hboth.mono fun p hp => ?_)
      · have hplace : p ∈ mapPlaces d target (some map).isSome := hp
        split
        · exact List.mem_cons_of_mem _ hplace
        · exact hplace
      · split at hp
        · rename_i hdone
          rw [if_pos hdone, List.mem_singleton.1 hp]
          exact List.mem_cons_self
        · cases hp

theorem write_touches {result : Except Failure Unit}
    (h : write target b options d = (result, d')) :
    Touches (if result.toBool then d.written target.path.toList :: mapPlaces d target (mapDue options b)
      else mapPlaces d target (mapDue options b)) d d' := by
  have hdir := makeDirectory_touches d target
  unfold write at h
  split at h
  · rename_i heq
    cases h
    rw [heq] at hdir
    exact hdir.mono (by simp)
  · rename_i d₁ heq
    rw [heq] at hdir
    split at h
    · cases h
      exact hdir.mono (by simp)
    · rename_i map? hmap
      have hdue : map?.isSome = mapDue options b :=
        Bool.eq_iff_iff.2 ((mapText?_ok hmap).1.trans (by simp [mapDue]))
      have hfiles := writeFiles_touches h
      rw [written_congr hdir.workingDir, mapPlaces_congr hdir.workingDir, hdue] at hfiles
      exact (hdir.mono (by simp)).trans hfiles

/-! ## Saving -/

/-- The bundle for a target is saved: this is what its files and the ledger say, and nothing else is
changed. -/
structure Saved (target : Target) (b : Bundle) (options : Options) (c c' : LoaderConfig)
    (d d' : Disk) : Prop where
  /-- The text names the source map if there is one. -/
  bundle : d'.readText target.path = .ok (if mapDue options b then
    b.source ++ "\n\n//# sourceMappingURL=" ++ target.mapFilename else b.source)
  /-- The source map is the one of the bundle, or one with other paths to the sources. -/
  map : ∀ map, options.sourceMaps = true → b.sourceMap = some map → ∃ text,
    d'.readText target.mapPath = .ok text ∧
      if options.relativeSourceMaps then
        SourceMap.relocate? map (String.ofList (FilePath.prefixBetween d.workingPath
          target.dir.toList options.baseUrl.toList)) = some text
      else text = map
  /-- The entry of the target is set, and all others are as they were. -/
  ledger : c'.section? "bundles" =
    some (Entries.put ((c.section? "bundles").getD []) target.id (.strings b.modules))
  bundles : c'.bundles = Entries.put c.bundles target.id b.modules
  settings : c'.otherEntries = c.otherEntries
  files : Touches (target.place d :: if mapDue options b then [target.mapPlace d] else []) d d'

theorem section?_bundles_register (c : LoaderConfig) (id : String) (modules : List String) :
    (c.register id modules).section? "bundles" =
      some (Entries.put ((c.section? "bundles").getD []) id (.strings modules)) := by
  simp [LoaderConfig.section?, LoaderConfig.register, LoaderConfig.get?_set, Json.Value.members?]

/-- Where a bundle was written for a root, it is saved once it is registered. -/
theorem saved_of_write {root : String} (c : LoaderConfig)
    (h : write (Target.forRoot root options) b options d = (.ok (), d')) :
    Saved (Target.forRoot root options) b options c
      (c.register (Target.forRoot root options).id b.modules) d d' := by
  have hplace := Target.written_path_forRoot root options (d := d)
  have hmapPlace := Target.written_mapPath_forRoot root options (d := d)
  have hapart : d.led (Target.forRoot root options).mapPath.toList ≠
      d.written (Target.forRoot root options).path.toList := by
    rw [Target.led_mapPath_forRoot, hplace]
    exact Target.mapPlace_ne_place _
  obtain ⟨map?, hmap, hholds⟩ := write_ok hapart h
  obtain ⟨hdue, htext⟩ := mapText?_ok hmap
  have hdue : map?.isSome = mapDue options b :=
    Bool.eq_iff_iff.2 (hdue.trans (by simp [mapDue]))
  have htouches := write_touches h
  rw [mapPlaces, hplace, Target.written_mapPath_forRoot root options] at htouches
  constructor
  case bundle =>
    have hreference : b.source ++ "\n\n//# sourceMappingURL=" ++
        (Target.forRoot root options).mapFilename =
          b.source ++ mapReference (Target.forRoot root options) :=
      String.append_assoc ..
    rw [hreference, ← hdue]
    exact hholds.bundle
  case map =>
    intro map hon hsome
    obtain ⟨text, rfl, hspec⟩ := htext map hon hsome
    exact ⟨text, hholds.map text rfl, hspec⟩
  case ledger => exact section?_bundles_register ..
  case bundles => exact LoaderConfig.bundles_register_eq_put ..
  case settings => exact LoaderConfig.otherEntries_register ..
  case files => exact htouches

/-- The bundle for a target is not saved: its source map may have been written, and that is all. -/
structure Unsaved (target : Target) (b : Bundle) (options : Options) (d d' : Disk) : Prop where
  files : Touches (if mapDue options b then [target.mapPlace d] else []) d d'
  /-- There is a bundle file or none, as before, and it holds what it held. -/
  bundle : ∀ content executable, d'.node? (target.place d) = some (.file content executable) ↔
    d.node? (target.place d) = some (.file content executable)
  text : ∀ text, d.readText target.path = .ok text → d'.readText target.path = .ok text

theorem unsaved_of_write {root : String} {e : Failure}
    (h : write (Target.forRoot root options) b options d = (.error e, d')) :
    Unsaved (Target.forRoot root options) b options d d' := by
  have hkeeps := write_keeps d (Target.forRoot root options) b options
  have htouches := write_touches h
  rw [h] at hkeeps
  rw [mapPlaces, Target.written_mapPath_forRoot root options] at htouches
  have hbundle : (Target.forRoot root options).place d ∉
      (if mapDue options b then [(Target.forRoot root options).mapPlace d] else []) := by
    split
    · exact fun h => Target.mapPlace_ne_place _ (List.mem_singleton.1 h).symm
    · exact List.not_mem_nil
  refine ⟨htouches, htouches.file_iff hbundle, fun text hr => ?_⟩
  refine readText_of_standing hkeeps.workingDir (fun p _ => hkeeps.directories p) ?_ hr
  rw [Target.led_path_forRoot]
  exact htouches.standing hbundle

/-- The ways in which a save can end. -/
theorem save_all_or_nothing (root : String) (b : Bundle) (options : Options) (c : LoaderConfig)
    (d : Disk) :
    match b.save root options c d with
    | (.ok none, c', d') => b.modules = [] ∧ c' = c ∧ d' = d
    | (.ok (some target), c', d') => b.modules ≠ [] ∧ target = Target.forRoot root options ∧
        Saved target b options c c' d d'
    | (.error _, c', d') => b.modules ≠ [] ∧ c' = c ∧
        Unsaved (Target.forRoot root options) b options d d' := by
  by_cases hmodules : b.modules = []
  · have hempty : b.isEmpty = true := by simp [isEmpty, hmodules]
    rw [save_of_isEmpty hempty]
    exact ⟨hmodules, rfl, rfl⟩
  · have hsome : ¬ b.isEmpty = true := by simpa [isEmpty] using hmodules
    rw [save, if_neg hsome]
    dsimp only
    rcases hwrite : write (Target.forRoot root options) b options d with ⟨_ | _, d'⟩
    · exact ⟨hmodules, rfl, unsaved_of_write hwrite⟩
    · exact ⟨hmodules, rfl, saved_of_write c hwrite⟩

end Bundle

end BundleLedger
