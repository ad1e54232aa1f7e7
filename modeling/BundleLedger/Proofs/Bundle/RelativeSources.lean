import BundleLedger.Proofs.Bundle.AllOrNothing
import BundleLedger.Proofs.Bundle.RelocatedSources
import BundleLedger.Proofs.FilePath.PrefixBetween
import BundleLedger.Proofs.Json.Integers

/-!
# Relative sources lead to the same files

The sources of a map are relative to the directory that they are resolved from. With the bundle the
map moves from the source directory to below the output directory, so what leads back is put before
each relative source. Where neither directory is written with a `..`, this is right, and all else that
the map says is kept. The path of the working directory comes from the system and never has a `..`.

All else but for the numbers: an integer that fits 64 bits stays what it is, and a greater one is
replaced by the nearest double.

Results:

* `relocateValue_moved`: with the right prefix, relative sources lead where they led.
* `descends_dir`: the directory of a target is below the output directory.
* `save_sources_lead`: so a saved map has sources that lead to the same places.
* `save_rounds_integer`: an integer of a saved map need not be the same.
-/
namespace BundleLedger

open FilePath Json

/-! ## Directories without a way up -/

namespace FilePath

/-- A path to a directory that nowhere goes up. -/
structure Descends (path : List Char) : Prop where
  ne_nil : path ≠ []
  up_not_mem : up ∉ strides path

theorem Descends.trail {workingDir path : List Char} (hwd : up ∉ strides workingDir)
    (h : Descends path) : up ∉ FilePath.trail workingDir path := by
  rw [FilePath.trail]
  by_cases habsolute : isAbsolute path = true
  · rw [join_absolute habsolute]
    exact h.up_not_mem
  · rw [strides_join _ (by simpa using habsolute), List.mem_append, not_or]
    exact ⟨hwd, h.up_not_mem⟩

theorem Descends.join {left right : List Char} (h : Descends left) (hright : IsPlain right) :
    Descends (FilePath.join left right) := by
  obtain ⟨lead, hlead⟩ := join_eq_append left hright.isAbsolute
  constructor
  case ne_nil =>
    rw [hlead]
    exact List.append_ne_nil_of_right_ne_nil _ hright.ne_nil
  case up_not_mem =>
    rw [strides_join left hright.isAbsolute, List.mem_append, not_or]
    exact ⟨h.up_not_mem, fun hup => (hright up (List.mem_filter.1 hup).1).2.2 rfl⟩

end FilePath

/-- The directory of a target is below the output directory. -/
theorem Target.descends_dir {root : String} (hroot : IsRootName root) {options : Options}
    (h : Descends options.dest.toList) : Descends (Target.forRoot root options).dir.toList := by
  rw [forRoot_eq hroot]
  dsimp only
  split
  · exact h
  · rename_i habove
    rw [String.toList_ofList]
    rcases ModuleName.path_cases (stem root) with hname | ⟨dir, name, hstem, hname⟩
    · exact absurd (ModuleName.above_of_not_mem hname) habove
    · have hplain := hroot.isPlain_stem
      rw [hstem, isPlain_append_iff] at hplain
      rw [hstem, ModuleName.above_append hname]
      exact h.join hplain.1

namespace SourceMap

/-! ## What moves in a map -/

/-- What an item of the sources becomes: a relative source leads from `place` where it led from
`base`, and any other is the same. -/
def SourceMoved (place base : Place) : Value → Value → Prop
  | .string s, v => if isRelative s.toList then
      ∃ s', v = .string s' ∧ leads place s'.toList = leads base s.toList
    else v = .string s
  | v, v' => v' = v

def SourcesMoved (place base : Place) : Value → Value → Prop
  | .array sources, v => ∃ sources', v = .array sources' ∧
      List.Forall₂ (SourceMoved place base) sources sources'
  | v, v' => v' = v

/-- What a map becomes: all members but the sources are the same, in the same order. -/
def Moved (place base : Place) : Members → Members → Prop :=
  List.Forall₂ fun m m' => m'.1 = m.1 ∧
    if m.1 = "sources" then SourcesMoved place base m.2 m'.2 else m'.2 = m.2

theorem isAbsolute_of_isRelative {s : List Char} (h : isRelative s = true) :
    isAbsolute s = false := by
  rw [isRelative, Bool.and_eq_true, bne_iff_ne] at h
  exact beq_eq_false_iff_ne.2 h.1

section Moving

variable {workingDir dir base lead : List Char}

theorem relocateSource_moved (h : IsRight workingDir dir base lead) (v : Value) :
    SourceMoved (placeOf workingDir dir) (placeOf workingDir base) v
      (relocateSource (String.ofList lead) v) := by
  cases v with
  | string s =>
    rw [SourceMoved, relocateSource]
    by_cases hrelative : isRelative s.toList = true
    · rw [if_pos hrelative, if_pos hrelative]
      refine ⟨_, rfl, ?_⟩
      rw [String.toList_append, String.toList_ofList,
        leads_append h.closed (isAbsolute_of_isRelative hrelative), h.arrives]
    · rw [if_neg hrelative, if_neg hrelative]
  | null | bool | number | array | object => rfl

theorem relocateItems_moved (h : IsRight workingDir dir base lead) (v : Value) :
    SourcesMoved (placeOf workingDir dir) (placeOf workingDir base) v
      (relocateItems (String.ofList lead) v) := by
  cases v with
  | array sources =>
    refine ⟨_, rfl, ?_⟩
    rw [List.forall₂_map_right_iff, List.forall₂_same]
    exact fun source _ => relocateSource_moved h source
  | null | bool | number | string | object => rfl

theorem relocateValue_moved (h : IsRight workingDir dir base lead) {members : Members}
    (hkeys : (Entries.keys members).Nodup) : ∃ moved,
      relocateValue (String.ofList lead) (.object members) = .object moved ∧
        Moved (placeOf workingDir dir) (placeOf workingDir base) members moved := by
  refine ⟨_, relocateValue_object hkeys _, ?_⟩
  rw [Moved, List.forall₂_map_right_iff, List.forall₂_same]
  intro m _
  refine ⟨rfl, ?_⟩
  by_cases hkey : m.1 = "sources"
  · rw [relocateMember, if_pos hkey, if_pos hkey]
    exact relocateItems_moved h m.2
  · rw [relocateMember, if_neg hkey, if_neg hkey]

end Moving

end SourceMap

namespace Bundle

open Disk SourceMap

/-! ## Saved maps -/

variable {d d' : Disk} {root map : String} {b : Bundle} {options : Options} {c c' : LoaderConfig}
  {target : Target} {trees : List (List Char × Tree)}

/-- What a save with relative sources writes as the map. -/
theorem map_of_save (hmaps : options.sourceMaps = true) (hrelative : options.relativeSourceMaps = true)
    (hmap : b.sourceMap = some map) (h : b.save root options c d = (.ok (some target), c', d')) :
    target = Target.forRoot root options ∧ ∃ v, Json.parse? map = some v ∧
      d'.readText target.mapPath = .ok (relocateValue (String.ofList
        (prefixBetween d.workingPath target.dir.toList options.baseUrl.toList)) v).text := by
  rcases save_cases d root b options c with hs | ⟨_, _, -, hs⟩ | ⟨d₁, hwrite, hs⟩ <;>
    rw [hs] at h <;> cases h
  obtain ⟨text, hread, hrelocated⟩ := (saved_of_write c hwrite).map map hmaps hmap
  rw [if_pos hrelative, SourceMap.relocate?, Option.map_eq_some_iff] at hrelocated
  obtain ⟨v, hv, rfl⟩ := hrelocated
  exact ⟨rfl, v, hv, hread⟩

/-- The relative sources of a saved map lead from the directory of the bundle where those of the
bundle lead from the source directory, and nothing else in the map is changed. What is written reads
back, if the integers of the map fit 64 bits. -/
theorem save_sources_lead (hwd : up ∉ strides d.workingPath) (hdest : Descends options.dest.toList)
    (hbase : Descends options.baseUrl.toList) (hroot : Target.IsRootName root)
    (hmaps : options.sourceMaps = true) (hrelative : options.relativeSourceMaps = true)
    (hmap : b.sourceMap = some map) (hread : Tree.read? map.toList = some (.object trees))
    (hsave : b.save root options c d = (.ok (some target), c', d')) :
    ∃ members moved, Json.parse? map = some (.object members) ∧
      Moved (placeOf d.workingPath target.dir.toList) (placeOf d.workingPath options.baseUrl.toList)
        members moved ∧
      d'.readText target.mapPath = .ok (Value.object moved).text ∧
      ((∀ n ∈ (Tree.object trees).numbers, n.IsWord) →
        Json.parse? (Value.object moved).text = some (.object moved)) := by
  obtain ⟨rfl, v, hv, htext⟩ := map_of_save hmaps hrelative hmap hsave
  have hdir := Target.descends_dir hroot hdest
  have habsolute : isAbsolute d.workingPath = true := rfl
  have hright := prefixBetween_right_of_names habsolute hdir.ne_nil hbase.ne_nil
    (hdir.trail hwd) (hbase.trail hwd)
  obtain ⟨members, rfl, hkeys⟩ : ∃ members, v = .object members ∧ (Entries.keys members).Nodup := by
    rw [Json.parse?, hread] at hv
    obtain ⟨pairs, -, hobject⟩ := Option.map_eq_some_iff.1 (show Option.map _ _ = some v from hv)
    exact ⟨Entries.ofPairs pairs, hobject.symm, Entries.keys_nodup_putAll List.nodup_nil⟩
  obtain ⟨moved, hmoved, hspec⟩ := relocateValue_moved hright hkeys
  rw [hmoved] at htext
  refine ⟨members, moved, hv, hspec, htext, fun hwords => parse?_text ?_⟩
  rw [← hmoved]
  exact legible_relocateValue (legible_of_read? hread hwords hv) _

/-! ### A project with its sources in `src` -/

theorem save_of_target (h : (b.save root options c d).1 = .ok (some target)) :
    b.save root options c d =
      (.ok (some target), (b.save root options c d).2.1, (b.save root options c d).2.2) := by
  generalize b.save root options c d = saved at h ⊢
  rw [← h]

def sampleOptions : Options := { baseUrl := "src", dest := "out", relativeSourceMaps := true }

def sampleDisk : Disk := { nodes := [(["w".toList], .directory)], workingDir := ["w".toList] }

def sampleBundle (map : String) : Bundle :=
  { source := "x", sourceMap := some map, modules := ["a.js"] }

def sampleSaved (root map : String) : Disk :=
  ((sampleBundle map).save root sampleOptions .empty sampleDisk).2.2

def nestedMap : String :=
  "\x7b\"version\":3,\"sources\":[\"a.js\",\"../b.js\",\"/c.js\"]\x7d"

def nestedMapSaved : String :=
  "\x7b\"version\":3,\"sources\":[\"../../src/a.js\",\"../../src/../b.js\",\"/c.js\"]\x7d"

/-- The bundle of `components/a` lies one level deeper than that of the project. -/
theorem save_sources_lead_nested :
    ((sampleBundle nestedMap).save "components/a" sampleOptions .empty sampleDisk).1 =
        .ok (some (Target.forRoot "components/a" sampleOptions)) ∧
      (sampleSaved "components/a" nestedMap).readText
        (Target.forRoot "components/a" sampleOptions).mapPath = .ok nestedMapSaved ∧
      ∃ members moved, Json.parse? nestedMap = some (.object members) ∧
        Json.parse? nestedMapSaved = some (.object moved) ∧
        Moved (placeOf "/w".toList "out/components".toList) (placeOf "/w".toList "src".toList)
          members moved := by
  have hread : Tree.read? nestedMap.toList = some (.object
      [("version".toList, .number ⟨false, [3], [], none⟩),
        ("sources".toList, .array
          [.string "a.js".toList, .string "../b.js".toList, .string "/c.js".toList])]) := by
    simp only [nestedMap, String.reduceToList]
    rfl
  have hversion : NumberLiteral.number? ⟨false, [3], [], none⟩ = some (.integer 3) := by decide
  have hsaved : ((sampleBundle nestedMap).save "components/a" sampleOptions .empty sampleDisk).1 =
      .ok (some (Target.forRoot "components/a" sampleOptions)) := by
    decide +kernel
  have hwritten : (sampleSaved "components/a" nestedMap).readText
      (Target.forRoot "components/a" sampleOptions).mapPath = .ok nestedMapSaved := by
    decide +kernel
  have hdir : (Target.forRoot "components/a" sampleOptions).dir.toList = "out/components".toList := by
    decide +kernel
  obtain ⟨members, moved, hmembers, hspec, htext, hback⟩ :=
    save_sources_lead (d := sampleDisk) (by decide) ⟨by decide, by decide⟩ ⟨by decide, by decide⟩
      (by decide) rfl rfl rfl hread (save_of_target hsaved)
  have hmoved := hback (List.forall_mem_singleton.2 (NumberLiteral.isWord_of_number? hversion))
  rw [Except.ok.inj (htext.symm.trans hwritten)] at hmoved
  rw [hdir] at hspec
  exact ⟨hsaved, hwritten, members, moved, hmembers, hmoved, hspec⟩

def wideMap : String :=
  "\x7b\"version\":3,\"sources\":[\"a.js\"],\"x_id\":100000000000000000001\x7d"

def wideMapSaved : String :=
  "\x7b\"version\":3,\"sources\":[\"../src/a.js\"],\"x_id\":1e+20\x7d"

def wideNumber : NumberLiteral := ⟨false, 1 :: List.replicate 19 0 ++ [1], [], none⟩

/-- An integer that is too great for 64 bits is not kept. -/
theorem save_rounds_integer : ¬ ∀ (d d' : Disk) (root map : String) (b : Bundle) (options : Options)
    (c c' : LoaderConfig) (target : Target) (trees : List (List Char × Tree)),
    up ∉ strides d.workingPath → Descends options.dest.toList → Descends options.baseUrl.toList →
    Target.IsRootName root → options.sourceMaps = true → options.relativeSourceMaps = true →
    b.sourceMap = some map → Tree.read? map.toList = some (.object trees) →
    (∀ n ∈ (Tree.object trees).numbers, n.IsInteger) →
    b.save root options c d = (.ok (some target), c', d') →
    ∀ text trees', d'.readText target.mapPath = .ok text →
      Tree.read? text.toList = some (.object trees') →
      ∀ key n n', (key, .number n) ∈ trees → (key, .number n') ∈ trees' → n'.exact = n.exact := by
  intro h
  have hread : Tree.read? wideMap.toList = some (.object
      [("version".toList, .number ⟨false, [3], [], none⟩),
        ("sources".toList, .array [.string "a.js".toList]),
        ("x_id".toList, .number wideNumber)]) := by
    simp only [wideMap, String.reduceToList]
    rfl
  have hsaved : ((sampleBundle wideMap).save "a" sampleOptions .empty sampleDisk).1 =
      .ok (some (Target.forRoot "a" sampleOptions)) := by
    decide +kernel
  have hwritten : (sampleSaved "a" wideMap).readText (Target.forRoot "a" sampleOptions).mapPath =
      .ok wideMapSaved := by
    decide +kernel
  have hreread : Tree.read? wideMapSaved.toList = some (.object
      [("version".toList, .number ⟨false, [3], [], none⟩),
        ("sources".toList, .array [.string "../src/a.js".toList]),
        ("x_id".toList, .number ⟨false, [1], [], some 20⟩)]) := by
    simp only [wideMapSaved, String.reduceToList]
    rfl
  have hsame := h sampleDisk _ "a" wideMap (sampleBundle wideMap) sampleOptions .empty _ _ _
    (by decide) ⟨by decide, by decide⟩ ⟨by decide, by decide⟩ (by decide) rfl rfl rfl hread
    (by decide) (save_of_target hsaved) _ _ hwritten hreread "x_id".toList wideNumber
    ⟨false, [1], [], some 20⟩ (by simp) (by simp)
  have hdigits : numberOf wideNumber.whole = 100000000000000000001 := by decide
  have hwide : wideNumber.exact = 100000000000000000001 := by
    rw [NumberLiteral.IsInteger.exact_eq ⟨rfl, rfl⟩, hdigits]
    norm_num [wideNumber]
  rw [hwide] at hsame
  norm_num [NumberLiteral.exact, numberOf] at hsame

end Bundle

end BundleLedger
