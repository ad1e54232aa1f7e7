import BundleLedger.FilePath

/-!
# Plain paths

A path is plain when each of its segments is a name: none is empty, and none is `.` or `..`. So a
plain path is relative, and it leads from a directory straight down.

Results:

* `split_append`: the segments of two paths with a separator between them.
* `isPlain_append_iff`: such a path is plain when both sides are.
-/
namespace BundleLedger

namespace Text

theorem split_append (sep : Char) (a b : List Char) :
    split sep (a ++ sep :: b) = split sep a ++ split sep b := by
  induction a with
  | nil => simp [split]
  | cons c a ih =>
    by_cases h : c = sep
    · simp [split, h, ih]
    · obtain ⟨piece, rest, hs⟩ := List.exists_cons_of_ne_nil (split_ne_nil sep a)
      simp [split, h, ih, hs]

theorem split_of_not_mem {sep : Char} {a : List Char} (h : sep ∉ a) : split sep a = [a] := by
  induction a with
  | nil => rfl
  | cons c a ih =>
    rw [List.mem_cons, not_or] at h
    rw [split, if_neg (Ne.symm h.1), ih h.2]

end Text

namespace FilePath

def IsName (piece : List Char) : Prop := piece ≠ [] ∧ piece ≠ ['.'] ∧ piece ≠ ['.', '.']

/-- A path all of whose segments are names. -/
def IsPlain (path : List Char) : Prop := ∀ piece ∈ Text.split '/' path, IsName piece

instance (piece : List Char) : Decidable (IsName piece) := inferInstanceAs (Decidable (_ ∧ _))

instance (path : List Char) : Decidable (IsPlain path) :=
  inferInstanceAs (Decidable (∀ piece ∈ Text.split '/' path, _))

theorem isPlain_append_iff {a b : List Char} :
    IsPlain (a ++ '/' :: b) ↔ IsPlain a ∧ IsPlain b := by
  simp only [IsPlain, Text.split_append, List.mem_append, or_imp, forall_and]

theorem not_isPlain_nil : ¬ IsPlain [] := by decide

theorem not_isPlain_here : ¬ IsPlain ['.'] := by decide

theorem IsPlain.ne_nil {path : List Char} (h : IsPlain path) : path ≠ [] := by
  rintro rfl
  exact not_isPlain_nil h

theorem IsPlain.ne_here {path : List Char} (h : IsPlain path) : path ≠ ['.'] := by
  rintro rfl
  exact not_isPlain_here h

end FilePath

end BundleLedger
