import BundleLedger.ModuleName

/-!
# Which component owns a module

A directory with an entry file is a component. A module belongs to the nearest component above it,
so a bundle of one component leaves out the modules of components nested inside of it, and the
modules that live in another component altogether.

Results:

* `mem_ancestors`: the ancestors of a name are what stands before one of its separators.
* `not_nested_and_foreign`: no module is nested and foreign for the same root.
* `isOwn_antitone` and `isOwn_congr`: what a root keeps depends on the directories above it only.
-/
namespace BundleLedger.Ownership

open ModuleName

/-- The directories above a name, the nearest first: each is what stands before some `/`. -/
def ancestors : List Char → List (List Char)
  | [] => []
  | c :: name => (ancestors name).map (c :: ·) ++ (if c = '/' then [[]] else [])

/-- The length of a component root; the project root counts as empty. -/
def rootLength (root : List Char) : Nat := if root = ['.'] then 0 else root.length

/-- Whether `child` sits in a component nested in the one at `root`: some directory above it, below
`root`, is a component. Spec §4.1. -/
def isNested (isComponent : List Char → Bool) (child root : List Char) : Bool :=
  isWithinChars child root &&
  (ancestors (resourceChars child)).any fun dir => rootLength root < dir.length && isComponent dir

/-- Whether `child` lies outside of `root` and in some component (spec §4.1). -/
def isForeign (isComponent : List Char → Bool) (child root : List Char) : Bool :=
  !isWithinChars child root &&
  (ancestors (resourceChars child)).any fun dir => dir != [] && isComponent dir

/-- Whether the bundle of the component at `root` keeps `child` (spec §4.2). -/
def isOwn (isComponent : List Char → Bool) (root child : String) : Bool :=
  !isNested isComponent child.toList root.toList && !isForeign isComponent child.toList root.toList

theorem mem_ancestors {name dir : List Char} :
    dir ∈ ancestors name ↔ ∃ rest, name = dir ++ '/' :: rest := by
  induction name generalizing dir with
  | nil => simp [ancestors]
  | cons c name ih =>
    simp only [ancestors, List.mem_append, List.mem_map]
    constructor
    · rintro (⟨d, hd, rfl⟩ | h)
      · obtain ⟨rest, rfl⟩ := ih.1 hd
        exact ⟨rest, rfl⟩
      · split at h
        · rename_i hc
          simp at h
          exact ⟨name, by simp [h, hc]⟩
        · simp at h
    · rintro ⟨rest, h⟩
      cases dir with
      | nil =>
        simp at h
        right
        simp [h.1]
      | cons d dir =>
        simp at h
        left
        exact ⟨dir, ih.2 ⟨rest, h.2⟩, by simp [h.1]⟩

theorem not_nested_and_foreign (isComponent : List Char → Bool) (child root : List Char) :
    (isNested isComponent child root && isForeign isComponent child root) = false := by
  cases h : isWithinChars child root <;> simp [isNested, isForeign, h]

/-- Fewer components take fewer modules away. -/
theorem isOwn_antitone {f g : List Char → Bool} {root child : String}
    (h : ∀ dir ∈ ancestors (resourceChars child.toList), f dir = true → g dir = true)
    (hown : isOwn g root child = true) : isOwn f root child = true := by
  have hany : ∀ test : List Char → Bool,
      ((ancestors (resourceChars child.toList)).any fun dir => test dir && f dir) = true →
        ((ancestors (resourceChars child.toList)).any fun dir => test dir && g dir) = true := by
    intro test hf
    obtain ⟨dir, hd, hdir⟩ := List.any_eq_true.1 hf
    rw [Bool.and_eq_true] at hdir
    exact List.any_eq_true.2 ⟨dir, hd, Bool.and_eq_true_iff.2 ⟨hdir.1, h dir hd hdir.2⟩⟩
  simp only [isOwn, isNested, isForeign, Bool.and_eq_true, Bool.not_eq_true', Bool.and_eq_false_iff]
    at hown ⊢
  refine ⟨hown.1.imp_right ?_, hown.2.imp_right ?_⟩
  · intro hg
    rw [← Bool.not_eq_true] at hg ⊢
    exact fun hf => hg (hany _ hf)
  · intro hg
    rw [← Bool.not_eq_true] at hg ⊢
    exact fun hf => hg (hany _ hf)

theorem isOwn_congr {f g : List Char → Bool} {root child : String}
    (h : ∀ dir ∈ ancestors (resourceChars child.toList), f dir = g dir) :
    isOwn f root child = isOwn g root child := by
  rw [Bool.eq_iff_iff]
  constructor
  · refine isOwn_antitone fun dir hd hg => ?_
    rwa [h dir hd]
  · refine isOwn_antitone fun dir hd hf => ?_
    rwa [← h dir hd]

end BundleLedger.Ownership
