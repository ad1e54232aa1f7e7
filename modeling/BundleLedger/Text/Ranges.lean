/-!
# Character classes as ranges

A character class of a standard is a sorted array of closed code point ranges. `Ranges.contains`
looks a character up by bisection.

Results:

* `bisect_mem`: a character found by bisection lies in one of the ranges.
-/
namespace BundleLedger.Text

/-- Closed ranges of code points, sorted and apart from each other. -/
abbrev Ranges := Array (Nat × Nat)

namespace Ranges

/-- Whether some range with an index in `[lo, hi)` holds `n`, halving that interval at most
`fuel` times. -/
def bisect (ranges : Ranges) (n : Nat) : Nat → Nat → Nat → Bool
  | 0, _, _ => false
  | fuel + 1, lo, hi =>
    if lo < hi then
      let mid := (lo + hi) / 2
      match ranges[mid]? with
      | none => false
      | some (first, last) =>
        if n < first then bisect ranges n fuel lo mid
        else if last < n then bisect ranges n fuel (mid + 1) hi
        else true
    else false

/-- Whether `c` lies in one of the ranges. -/
def contains (ranges : Ranges) (c : Char) : Bool :=
  bisect ranges c.toNat (Nat.log2 ranges.size + 2) 0 ranges.size

theorem bisect_mem {ranges : Ranges} {n fuel lo hi : Nat} (h : bisect ranges n fuel lo hi = true) :
    ∃ range ∈ ranges.toList, range.1 ≤ n ∧ n ≤ range.2 := by
  induction fuel generalizing lo hi with
  | zero => simp [bisect] at h
  | succ fuel ih =>
    unfold bisect at h
    split at h
    · dsimp only at h
      split at h
      · simp at h
      · rename_i first last hget
        split at h
        · exact ih h
        · split at h
          · exact ih h
          · refine ⟨(first, last), ?_, by omega, by omega⟩
            have hmem := Array.mem_of_getElem? hget
            simpa using hmem
    · simp at h

end Ranges

end BundleLedger.Text
