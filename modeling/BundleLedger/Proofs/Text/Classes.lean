import BundleLedger.Text.Class.Identifier
import Mathlib.Algebra.Group.Nat.Defs
import Mathlib.Data.List.Chain

/-!
# Characters of identifier names

Bisection finds every character of a class, because the ranges of a class are in order. So the class
of the characters that may start a name can be compared with that of those that may follow.

Results:

* `Ranges.contains_of_mem`: in ordered ranges, bisection misses nothing.
* `isIdentifierPart_of_start`: what may start a name may follow in one.
-/
namespace BundleLedger.Text

namespace Ranges

/-- `a` and `b` are ranges, and `b` lies above `a`. -/
def Below (a b : Nat × Nat) : Prop := a.1 ≤ a.2 ∧ a.2 < b.1 ∧ b.1 ≤ b.2

instance (a b : Nat × Nat) : Decidable (Below a b) := inferInstanceAs (Decidable (_ ∧ _))

instance : Trans Below Below Below where
  trans := fun ⟨ha, hab, hb⟩ ⟨_, hbc, hc⟩ => ⟨ha, by omega, hc⟩

def Ordered (ranges : Ranges) : Prop := ranges.toList.IsChain Below

theorem Ordered.below {ranges : Ranges} (h : ranges.Ordered) {i j : Nat} (hij : i < j)
    {a b : Nat × Nat} (ha : ranges[i]? = some a) (hb : ranges[j]? = some b) : Below a b := by
  have hpairs := List.pairwise_iff_getElem.1 (List.isChain_iff_pairwise.1 h)
  obtain ⟨hi, rfl⟩ := Array.getElem?_eq_some_iff.1 ha
  obtain ⟨hj, rfl⟩ := Array.getElem?_eq_some_iff.1 hb
  exact hpairs i j (by simpa using hi) (by simpa using hj) hij

theorem bisect_of_mem {ranges : Ranges} (h : ranges.Ordered) {n fuel lo hi i : Nat}
    {range : Nat × Nat} (hfuel : hi - lo < 2 ^ fuel) (hlo : lo ≤ i) (hhi : i < hi)
    (hi' : hi ≤ ranges.size) (hget : ranges[i]? = some range) (hfirst : range.1 ≤ n)
    (hlast : n ≤ range.2) : bisect ranges n fuel lo hi = true := by
  induction fuel generalizing lo hi with
  | zero =>
    simp at hfuel
    omega
  | succ fuel ih =>
    unfold bisect
    rw [if_pos (by omega)]
    obtain ⟨⟨first, last⟩, hmid⟩ : ∃ mid, ranges[(lo + hi) / 2]? = some mid :=
      ⟨_, Array.getElem?_eq_getElem (by omega)⟩
    rw [Nat.pow_succ] at hfuel
    simp only [hmid]
    rcases Nat.lt_trichotomy i ((lo + hi) / 2) with hlt | heq | hgt
    · -- the range lies below the middle one
      obtain ⟨-, hbelow, -⟩ := h.below hlt hget hmid
      simp only at hbelow
      rw [if_pos (by omega)]
      exact ih (by omega) hlo hlt (by omega)
    · rw [← heq, hget, Option.some.injEq] at hmid
      subst hmid
      simp only at hfirst hlast
      rw [if_neg (by omega), if_neg (by omega)]
    · obtain ⟨hproper, habove, -⟩ := h.below hgt hmid hget
      simp only at hproper habove
      rw [if_neg (by omega), if_pos (by omega)]
      exact ih (by omega) (by omega) hhi hi'

theorem contains_of_mem {ranges : Ranges} (h : ranges.Ordered) {c : Char} {range : Nat × Nat}
    (hmem : range ∈ ranges.toList) (hfirst : range.1 ≤ c.toNat) (hlast : c.toNat ≤ range.2) :
    ranges.contains c = true := by
  obtain ⟨i, hi, hget⟩ := List.getElem_of_mem hmem
  rw [Array.length_toList] at hi
  have hget' : ranges[i]? = some range := by
    rw [Array.getElem?_eq_getElem hi, Option.some.injEq, ← hget, Array.getElem_toList]
  refine bisect_of_mem h ?_ (Nat.zero_le i) hi (Nat.le_refl _) hget' hfirst hlast
  have hlog := Nat.lt_log2_self (n := ranges.size)
  rw [Nat.pow_succ] at hlog ⊢
  omega

/-- Whether each of the ordered ranges `inner` lies in one of the ordered ranges `outer`. -/
def covers (inner : List (Nat × Nat)) : List (Nat × Nat) → Bool
  | [] => inner.isEmpty
  | b :: outer => covers (inner.dropWhile fun a => b.1.ble a.1 && a.2.ble b.2) outer

theorem exists_of_covers {inner outer : List (Nat × Nat)} (h : covers inner outer = true)
    {a : Nat × Nat} (ha : a ∈ inner) : ∃ b ∈ outer, b.1 ≤ a.1 ∧ a.2 ≤ b.2 := by
  induction outer generalizing inner with
  | nil =>
    rw [covers, List.isEmpty_iff] at h
    simp [h] at ha
  | cons b outer ih =>
    rw [covers] at h
    rw [← List.takeWhile_append_dropWhile (p := fun a => b.1.ble a.1 && a.2.ble b.2) (l := inner),
      List.mem_append] at ha
    rcases ha with ha | ha
    · have hin := List.all_eq_true.1 List.all_takeWhile a ha
      simp only [Bool.and_eq_true, Nat.ble_eq] at hin
      exact ⟨b, List.mem_cons_self, hin⟩
    · obtain ⟨b', hb', hin⟩ := ih h ha
      exact ⟨b', List.mem_cons_of_mem _ hb', hin⟩

end Ranges

theorem identifierPartRanges_ordered : identifierPartRanges.Ordered := by
  unfold Ranges.Ordered
  decide +kernel

theorem identifierPart_covers :
    Ranges.covers identifierStartRanges.toList identifierPartRanges.toList = true := by
  decide +kernel

theorem isIdentifierPart_of_start {c : Char} (h : isIdentifierStart c = true) :
    isIdentifierPart c = true := by
  simp only [isIdentifierStart, Bool.or_eq_true, beq_iff_eq] at h
  rcases h with (rfl | rfl) | h
  · decide
  · decide +kernel
  · obtain ⟨range, hmem, hfirst, hlast⟩ := Ranges.bisect_mem h
    obtain ⟨range', hmem', hfirst', hlast'⟩ := Ranges.exists_of_covers identifierPart_covers hmem
    have hpart := Ranges.contains_of_mem identifierPartRanges_ordered hmem'
      (Nat.le_trans hfirst' hfirst) (Nat.le_trans hlast hlast')
    simp [isIdentifierPart, hpart]

end BundleLedger.Text
