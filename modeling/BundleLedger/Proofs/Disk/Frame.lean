import BundleLedger.Bundle.Save
import BundleLedger.Disk.Component

/-!
# What an operation on files leaves alone

Without links a path leads where its text says, if it leads anywhere: names go down, `..` goes up
(`pointed`). So an operation on a path changes one place at most, and a look at a path depends on no
more than the places on its way (`passed`).

`Extends places d d'` says that `d'` came about from `d` by operations on `places`: nothing else
changed, and no directory is gone. `Keeps places d d'` says that nothing is gone and that what stood
elsewhere stands as it did; something new may have come anywhere.

Results:

* `walk_eq_ok` and `walk_congr`: where a walk ends, and what it depends on.
* `write_extends`, `makeDirectories_extends` and `Bundle.write_extends`: what each operation changes.
* `makeDirectories_keeps` and `write_error_keeps`: what leaves all files as they were.
* `isComponent_extends`: a directory stays a component, or stays none, as long as nothing new stands
  on the way to its entry file.
-/
namespace BundleLedger.Disk

/-! ## Where paths lead -/

def stepPlace (place : Place) (piece : List Char) : Place :=
  if piece = [] ∨ piece = ['.'] then place
  else if piece = ['.', '.'] then place.dropLast
  else place ++ [piece]

/-- Where names lead, whatever is there. -/
def pointed (start : Place) (pieces : List (List Char)) : Place := pieces.foldl stepPlace start

/-- The places on the way, with both ends. -/
def passed (start : Place) : List (List Char) → List Place
  | [] => [start]
  | piece :: pieces => start :: passed (stepPlace start piece) pieces

theorem start_mem_passed (start : Place) (pieces : List (List Char)) : start ∈ passed start pieces := by
  cases pieces <;> simp [passed]

/-- Whether a walk goes on from a place by a name: the place is a directory, and what is named
there exists. -/
def Passable (d : Disk) (place : Place) (piece : List Char) : Prop :=
  d.node? place = some .directory ∧
    (piece = [] ∨ piece = ['.'] ∨ piece = ['.', '.'] ∨
      (Text.byteLength piece ≤ nameLimit ∧ (d.node? (place ++ [piece])).isSome))

theorem walk_cons {d : Disk} {place : Place} {piece : List Char} (h : d.Passable place piece)
    (pieces : List (List Char)) :
    d.walk place (piece :: pieces) = d.walk (stepPlace place piece) pieces := by
  obtain ⟨hdir, hpiece⟩ := h
  simp only [walk, hdir, stepPlace]
  split
  · rfl
  · rename_i hp
    split
    · rfl
    · rename_i hup
      simp only [not_or] at hp
      obtain ⟨hlimit, hnode⟩ : Text.byteLength piece ≤ nameLimit ∧ _ := by
        simpa [hp, hup] using hpiece
      obtain ⟨node, hnode⟩ := Option.isSome_iff_exists.1 hnode
      rw [if_neg (by omega), hnode]

theorem passable_of_walk {d : Disk} {start place : Place} {piece : List Char}
    {pieces : List (List Char)} (h : d.walk start (piece :: pieces) = .ok place) :
    d.Passable start piece := by
  simp only [walk] at h
  split at h
  · rename_i hdir
    refine ⟨hdir, ?_⟩
    split at h
    · rename_i hp
      exact hp.elim .inl fun hp => .inr (.inl hp)
    · split at h
      · rename_i hup
        exact .inr (.inr (.inl hup))
      · split at h
        · cases h
        · rename_i hlimit
          split at h
          · rename_i hnode
            exact .inr (.inr (.inr ⟨by omega, by simp [hnode]⟩))
          · cases h
  · cases h

theorem walk_eq_ok {d : Disk} {start place : Place} {pieces : List (List Char)}
    (h : d.walk start pieces = .ok place) : place = pointed start pieces := by
  induction pieces generalizing start with
  | nil =>
    simp only [walk, Except.ok.injEq] at h
    exact h.symm
  | cons piece pieces ih =>
    rw [walk_cons (passable_of_walk h)] at h
    exact ih h

theorem walk_congr {d d' : Disk} {start : Place} {pieces : List (List Char)}
    (h : ∀ p ∈ passed start pieces, d'.node? p = d.node? p) :
    d'.walk start pieces = d.walk start pieces := by
  induction pieces generalizing start with
  | nil => rfl
  | cons piece pieces ih =>
    simp only [passed, List.mem_cons, forall_eq_or_imp] at h
    obtain ⟨hstart, hrest⟩ := h
    have hnext := hrest _ (start_mem_passed _ pieces)
    have ih' := ih hrest
    unfold stepPlace at ih' hnext
    simp only [walk, hstart]
    split
    · split
      · rename_i hp
        rw [if_pos hp] at ih'
        exact ih'
      · rename_i hp
        rw [if_neg hp] at ih' hnext
        split
        · rename_i hup
          rw [if_pos hup] at ih'
          exact ih'
        · rename_i hup
          rw [if_neg hup] at ih' hnext
          rw [hnext, ih']
    · rfl

/-- The place that an operation on a path makes or replaces, if it does. -/
def written (d : Disk) (path : List Char) : Place :=
  pointed (d.startOf path) (Text.split '/' (Text.dropTrailing (· == '/') path))

theorem startOf_congr {d d' : Disk} (hwd : d'.workingDir = d.workingDir) (path : List Char) :
    d'.startOf path = d.startOf path := by
  simp [startOf, hwd]

theorem written_congr {d d' : Disk} (hwd : d'.workingDir = d.workingDir) (path : List Char) :
    d'.written path = d.written path := by
  rw [written, written, startOf_congr hwd]

theorem resolveNew_eq_ok {d : Disk} {path name : List Char} {place : Place}
    (h : d.resolveNew path = .ok (place, some name)) : place ++ [name] = d.written path := by
  unfold resolveNew at h
  split at h
  · cases h
  · dsimp only at h
    unfold written
    generalize Text.split '/' (Text.dropTrailing (· == '/') path) = pieces at h ⊢
    split at h
    · cases h
    · rename_i last hlast
      obtain ⟨above, rfl⟩ := List.getLast?_eq_some_iff.1 hlast
      rw [List.dropLast_concat] at h
      split at h
      · cases h
      · rename_i parent hwalk
        split at h
        · split at h
          · simp at h
          · rename_i hplain
            split at h
            · cases h
            · simp only [Except.ok.injEq, Prod.mk.injEq, Option.some.injEq] at h
              obtain ⟨rfl, rfl⟩ := h
              simp only [not_or] at hplain
              rw [walk_eq_ok hwalk]
              simp [pointed, stepPlace, hplain]
        · cases h

/-! ## What operations change -/

/-- Nothing changed but at `places`, and directories stayed. -/
structure Extends (places : List Place) (d d' : Disk) : Prop where
  workingDir : d'.workingDir = d.workingDir
  elsewhere : ∀ p, p ∉ places → d'.node? p = d.node? p
  directories : ∀ p, d.node? p = some .directory → d'.node? p = some .directory

variable {d d' d'' : Disk} {places : List Place}

theorem Extends.refl (places : List Place) (d : Disk) : Extends places d d :=
  ⟨rfl, fun _ _ => rfl, fun _ h => h⟩

theorem Extends.trans (h : Extends places d d') (h' : Extends places d' d'') :
    Extends places d d'' := by
  refine ⟨h'.workingDir.trans h.workingDir, ?_, fun p hp => h'.directories p (h.directories p hp)⟩
  intro p hp
  rw [h'.elsewhere p hp, h.elsewhere p hp]

theorem Extends.mono {more : List Place} (h : Extends places d d') (hs : ∀ p ∈ places, p ∈ more) :
    Extends more d d' :=
  ⟨h.workingDir, fun p hp => h.elsewhere p fun hm => hp (hs p hm), h.directories⟩

theorem Extends.startOf (h : Extends places d d') (path : List Char) :
    d'.startOf path = d.startOf path :=
  startOf_congr h.workingDir path

theorem Extends.written (h : Extends places d d') (path : List Char) :
    d'.written path = d.written path :=
  written_congr h.workingDir path

/-- Whatever is put where no directory stands. -/
theorem put_extends {place : Place} (node : Node) (h : d.node? place ≠ some .directory) :
    Extends [place] d (d.put place node) := by
  refine ⟨rfl, ?_, ?_⟩
  · intro p hp
    rw [List.mem_singleton] at hp
    by_cases hnil : p = []
    · simp [node?, hnil]
    · rw [node?_put d node hnil, if_neg hp]
  · intro p hdir
    by_cases hnil : p = []
    · simp [node?, hnil]
    · rw [node?_put d node hnil]
      split
      · rename_i he
        rw [he] at hdir
        exact absurd hdir h
      · exact hdir

theorem extends_of_nodes (hn : d'.nodes = d.nodes) (hw : d'.workingDir = d.workingDir) :
    Extends places d d' := by
  refine ⟨hw, fun p _ => ?_, fun p hp => ?_⟩
  · simp [node?, hn]
  · simpa [node?, hn] using hp

theorem attempt_extends (d : Disk) : Extends places d d.attempt.2 := by
  unfold attempt
  split
  · exact .refl _ d
  · exact extends_of_nodes rfl rfl

theorem store_extends {path : String} {content : Content} (h : d.store path content = .ok d') :
    Extends [d.written path.toList] d d' := by
  unfold store at h
  split at h
  · cases h
  · cases h
  · rename_i place name hr
    rw [← resolveNew_eq_ok hr]
    split at h
    · cases h
    · split at h
      · cases h
      · rename_i hnode
        cases h
        exact put_extends _ (by simp [hnode])
      · rename_i hnode
        cases h
        exact put_extends _ (by simp [hnode])

theorem write_extends (d : Disk) (path text : String) :
    Extends [d.written path.toList] d (d.write path text).2 := by
  have ha : Extends [d.written path.toList] d d.attempt.2 := attempt_extends d
  unfold write
  split
  · rename_i heq
    rw [heq] at ha
    exact ha
  · rename_i heq
    rw [heq] at ha
    split
    · rename_i hs
      have hstore := store_extends hs
      rw [ha.written] at hstore
      exact ha.trans hstore
    · exact ha

theorem makeDirectory_extends {path : List Char} (h : d.makeDirectory path = .ok d') :
    Extends [d.written path] d d' := by
  unfold makeDirectory at h
  split at h
  · cases h
  · cases h
  · rename_i place name hr
    rw [← resolveNew_eq_ok hr]
    split at h
    · cases h
    · rename_i hnode
      cases h
      exact put_extends _ (by simp [hnode])

/-- The places of a directory and those above it, as far as the path goes. -/
def chainPlaces (d : Disk) (paths : List (List Char)) : List Place :=
  (paths.filter (· ≠ [])).map d.written

theorem Extends.chainPlaces (h : Extends places d d') (paths : List (List Char)) :
    d'.chainPlaces paths = d.chainPlaces paths :=
  List.map_congr_left fun p _ => h.written p

/-- Making directories one after the other does what making one of them does. -/
theorem makeChain_trans {R : Disk → Disk → Prop} (hrefl : ∀ d, R d d)
    (htrans : ∀ {d d' d''}, R d d' → R d' d'' → R d d'') {paths : List (List Char)}
    (hmake : ∀ path ∈ paths, path ≠ [] → ∀ {d d'}, d.makeDirectory path = .ok d' → R d d')
    (d : Disk) : R d (d.makeChain paths).2 := by
  induction paths generalizing d with
  | nil => exact hrefl d
  | cons path parents ih =>
    rw [List.forall_mem_cons] at hmake
    have hparents : R d (d.makeChain parents).2 := ih hmake.2 d
    simp only [makeChain]
    split
    · exact hrefl d
    · rename_i hne
      split
      · rename_i hm
        exact hmake.1 hne hm
      · split
        · rename_i heq
          rw [heq] at hparents
          exact hparents
        · rename_i heq
          rw [heq] at hparents
          split
          · rename_i hm
            exact htrans hparents (hmake.1 hne hm)
          · split <;> exact hparents
      · split <;> exact hrefl d

theorem makeChain_extends (d : Disk) (paths : List (List Char)) :
    Extends (d.chainPlaces paths) d (d.makeChain paths).2 := by
  refine makeChain_trans (R := fun d d' => Extends (d.chainPlaces paths) d d')
    (fun d => .refl _ d) ?_ ?_ d
  · intro d d' d'' h h'
    rw [h.chainPlaces] at h'
    exact h.trans h'
  · intro path hpath hne d d' hm
    refine (makeDirectory_extends hm).mono fun p hp => ?_
    rw [List.mem_singleton.1 hp, chainPlaces]
    exact List.mem_map_of_mem (List.mem_filter.2 ⟨hpath, by simpa using hne⟩)

theorem makeDirectories_extends (d : Disk) (path : String) :
    Extends (d.chainPlaces (chainOf path.toList)) d (d.makeDirectories path).2 := by
  have ha : Extends (d.chainPlaces (chainOf path.toList)) d d.attempt.2 := attempt_extends d
  unfold makeDirectories
  split
  · rename_i heq
    rw [heq] at ha
    exact ha
  · rename_i d₁ heq
    rw [heq] at ha
    have hc := makeChain_extends d₁ (chainOf path.toList)
    rw [ha.chainPlaces] at hc
    exact ha.trans hc

/-! ## What stays -/

/-- Nothing that stood is gone, and no directory became a file. -/
structure Remains (d d' : Disk) : Prop where
  workingDir : d'.workingDir = d.workingDir
  directories : ∀ p, d.node? p = some .directory → d'.node? p = some .directory
  nodes : ∀ p, (d.node? p).isSome → (d'.node? p).isSome

/-- Nothing is gone, and what stood outside of `places` stands as it did. -/
structure Keeps (places : List Place) (d d' : Disk) : Prop extends Remains d d' where
  standing : ∀ p, p ∉ places → (d.node? p).isSome → d'.node? p = d.node? p

theorem Remains.refl (d : Disk) : Remains d d := ⟨rfl, fun _ h => h, fun _ h => h⟩

theorem Remains.trans (h : Remains d d') (h' : Remains d' d'') : Remains d d'' :=
  ⟨h'.workingDir.trans h.workingDir, fun p hp => h'.directories p (h.directories p hp),
    fun p hp => h'.nodes p (h.nodes p hp)⟩

theorem Keeps.refl (places : List Place) (d : Disk) : Keeps places d d :=
  ⟨.refl d, fun _ _ _ => rfl⟩

theorem Keeps.trans (h : Keeps places d d') (h' : Keeps places d' d'') : Keeps places d d'' := by
  refine ⟨h.toRemains.trans h'.toRemains, fun p hp hs => ?_⟩
  rw [h'.standing p hp (h.nodes p hs), h.standing p hp hs]

theorem Keeps.mono {more : List Place} (h : Keeps places d d') (hs : ∀ p ∈ places, p ∈ more) :
    Keeps more d d' :=
  ⟨h.toRemains, fun p hp => h.standing p fun hm => hp (hs p hm)⟩

theorem Extends.symm (h : Extends [] d d') : Extends [] d' d :=
  ⟨h.workingDir.symm, fun p hp => (h.elsewhere p hp).symm, fun p hp => by
    rwa [h.elsewhere p List.not_mem_nil] at hp⟩

/-- Where nothing changed, nothing is gone. -/
theorem Extends.remains (h : Extends [] d d') : Remains d d' :=
  ⟨h.workingDir, h.directories, fun p hp => by rwa [h.elsewhere p List.not_mem_nil]⟩

theorem keeps_of_nodes (hn : d'.nodes = d.nodes) (hw : d'.workingDir = d.workingDir) :
    Keeps places d d' := by
  have h : Extends [] d d' := extends_of_nodes hn hw
  exact ⟨h.remains, fun p _ _ => h.elsewhere p List.not_mem_nil⟩

theorem attempt_keeps (d : Disk) : Keeps places d d.attempt.2 := by
  unfold attempt
  split
  · exact .refl _ d
  · exact keeps_of_nodes rfl rfl

/-- Whatever is put where no directory stands. -/
theorem put_keeps {place : Place} (node : Node) (h : d.node? place ≠ some .directory) :
    Keeps [place] d (d.put place node) := by
  have hext := put_extends node h
  refine ⟨⟨hext.workingDir, hext.directories, fun p hp => ?_⟩, fun p hp _ => hext.elsewhere p hp⟩
  by_cases hnil : p = []
  · simp [node?, hnil]
  · rw [node?_put d node hnil]
    split
    · rfl
    · exact hp

/-- What is put where nothing stands leaves all that stands. -/
theorem put_new_keeps {place : Place} (node : Node) (h : d.node? place = none) :
    Keeps [] d (d.put place node) := by
  have hkeeps : Keeps [place] d (d.put place node) := put_keeps node (by simp [h])
  refine ⟨hkeeps.toRemains, fun p _ hs => hkeeps.standing p ?_ hs⟩
  rw [List.mem_singleton]
  rintro rfl
  rw [h] at hs
  cases hs

theorem store_keeps {path : String} {content : Content} (h : d.store path content = .ok d') :
    Keeps [d.written path.toList] d d' := by
  unfold store at h
  split at h
  · cases h
  · cases h
  · rename_i place name hr
    rw [← resolveNew_eq_ok hr]
    split at h
    · cases h
    · split at h
      · cases h
      · rename_i hnode
        cases h
        exact put_keeps _ (by simp [hnode])
      · rename_i hnode
        cases h
        exact put_keeps _ (by simp [hnode])

theorem write_keeps (d : Disk) (path text : String) :
    Keeps [d.written path.toList] d (d.write path text).2 := by
  have ha : Keeps [d.written path.toList] d d.attempt.2 := attempt_keeps d
  unfold write
  split
  · rename_i heq
    rw [heq] at ha
    exact ha
  · rename_i heq
    rw [heq] at ha
    split
    · rename_i hs
      have hstore := store_keeps hs
      rw [written_congr ha.workingDir] at hstore
      exact ha.trans hstore
    · exact ha

/-- A write that fails leaves all that stands. -/
theorem write_error_keeps {path text : String} {e : OsError} (h : d.write path text = (.error e, d')) :
    Keeps [] d d' := by
  have hkeeps := write_keeps d path text
  rw [h] at hkeeps
  exact keeps_of_nodes (write_error h) hkeeps.workingDir

theorem makeDirectory_keeps {path : List Char} (h : d.makeDirectory path = .ok d') :
    Keeps [] d d' := by
  unfold makeDirectory at h
  split at h
  · cases h
  · cases h
  · split at h
    · cases h
    · rename_i hnode
      cases h
      exact put_new_keeps _ hnode

/-- Making directories leaves all that stands. -/
theorem makeDirectories_keeps (d : Disk) (path : String) :
    Keeps [] d (d.makeDirectories path).2 := by
  have ha : Keeps [] d d.attempt.2 := attempt_keeps d
  unfold makeDirectories
  split
  · rename_i heq
    rw [heq] at ha
    exact ha
  · rename_i d₁ heq
    rw [heq] at ha
    exact ha.trans (makeChain_trans (R := Keeps []) (.refl []) Keeps.trans
      (fun _ _ _ => makeDirectory_keeps) d₁)

/-! ## Components -/

/-- The places on the way to the entry file of a directory below `base`. -/
def probed (d : Disk) (base : String) (dir : List Char) : List Place :=
  passed (d.startOf (entryPath base dir).toList) (Text.split '/' (entryPath base dir).toList)

/-- Nothing new stands on the way to the entry file, so it is there or not as it was. -/
theorem isComponent_extends (h : Extends places d d') {base : String} {dir : List Char}
    (hc : ∀ p ∈ places, p ∈ d.probed base dir → d.node? p = some .directory) :
    d'.isComponent base dir = d.isComponent base dir := by
  have hwalk : d'.resolve (entryPath base dir).toList = d.resolve (entryPath base dir).toList := by
    unfold resolve
    split
    · rfl
    · rw [h.startOf]
      refine walk_congr ?_
      intro p hp
      by_cases hm : p ∈ places
      · have hdir := hc p hm hp
        rw [hdir, h.directories p hdir]
      · exact h.elsewhere p hm
  rw [isComponent, isComponent, exists?, exists?, hwalk]

end BundleLedger.Disk

namespace BundleLedger.Bundle

open Disk

/-- The places that may come to be when the bundle for a target is written: its directory and those
above it, the bundle, and its source map. -/
def places (d : Disk) (target : Target) : List Place :=
  d.written target.path.toList :: d.written target.mapPath.toList ::
    d.chainPlaces (chainOf target.dir.toList)

variable {d d' : Disk} {others : List Place}

theorem places_extends (h : Extends others d d') (target : Target) :
    places d' target = places d target := by
  simp only [places, h.written, h.chainPlaces]

theorem writeFile_extends (d : Disk) (path text : String) :
    Extends [d.written path.toList] d (writeFile path text d).2 := by
  have h := write_extends d path text
  unfold writeFile
  split <;> rename_i heq <;> rw [heq] at h <;> exact h

theorem writeFiles_extends (d : Disk) (target : Target) (source : String) (map? : Option String) :
    Extends [d.written target.path.toList, d.written target.mapPath.toList] d
      (writeFiles target source map? d).2 := by
  unfold writeFiles
  split
  · exact (writeFile_extends d _ _).mono (by simp)
  · rename_i map
    have hm : Extends [d.written target.path.toList, d.written target.mapPath.toList] d
        (writeFile target.mapPath map d).2 := (writeFile_extends d _ _).mono (by simp)
    split
    · rename_i heq
      rw [heq] at hm
      exact hm
    · rename_i d₁ heq
      rw [heq] at hm
      have hb := writeFile_extends d₁ target.path (source ++ mapReference target)
      rw [hm.written] at hb
      exact hm.trans (hb.mono (by simp))

/-- Writing a bundle changes nothing but the places of its target. -/
theorem write_extends (d : Disk) (target : Target) (b : Bundle) (options : Options) :
    Extends (places d target) d (write target b options d).2 := by
  have hdir : Extends (places d target) d (makeDirectory target d).2 := by
    have h := makeDirectories_extends d target.dir
    have hs : ∀ p ∈ d.chainPlaces (chainOf target.dir.toList), p ∈ places d target := by
      intro p hp
      simp [places, hp]
    unfold makeDirectory
    split <;> rename_i heq <;> rw [heq] at h <;> exact h.mono hs
  unfold write
  split
  · rename_i heq
    rw [heq] at hdir
    exact hdir
  · rename_i d₁ heq
    rw [heq] at hdir
    split
    · exact hdir
    · rename_i map? _
      refine hdir.trans ((writeFiles_extends d₁ target b.source map?).mono ?_)
      intro p hp
      rw [hdir.written, hdir.written] at hp
      simp only [places, List.mem_cons] at hp ⊢
      rcases hp with rfl | rfl | hp
      · exact .inl rfl
      · exact .inr (.inl rfl)
      · cases hp

theorem save_extends (d : Disk) (root : String) (b : Bundle) (options : Options) (c : LoaderConfig) :
    Extends (places d (Target.forRoot root options)) d (b.save root options c d).2.2 := by
  have h := write_extends d (Target.forRoot root options) b options
  unfold save
  split
  · exact .refl _ d
  · dsimp only
    split <;> rename_i heq <;> rw [heq] at h <;> exact h

end BundleLedger.Bundle
