import BundleLedger.Proofs.Json.ReadBack
import Mathlib.Algebra.Order.Field.Basic
import Mathlib.Data.Rat.Cast.Order
import Mathlib.Tactic.NormNum

/-!
# Integers in JSON

The digits of a literal stand for a number, however many there are (`NumberLiteral.exact`). What is
read is that number if the literal is an integer of 64 bits; of a greater integer only the nearest
double is left. So a document with integers of 64 bits is one that survives being read and written.

Results:

* `number?_of_isWord` and `exact_of_number?`: which integers are read as what they are.
* `legible_of_read?`: what was read from integers of 64 bits can be written.
-/
namespace BundleLedger.Json

open BundleLedger.Decimal

namespace NumberLiteral

/-- The number that the digits of a literal stand for. -/
def exact (literal : NumberLiteral) : ℚ :=
  (if literal.negative then -1 else 1) * numberOf (literal.whole ++ literal.fraction) *
    10 ^ (literal.exponent.getD 0 - literal.fraction.length)

def IsInteger (literal : NumberLiteral) : Prop := literal.fraction = [] ∧ literal.exponent = none

instance (literal : NumberLiteral) : Decidable literal.IsInteger :=
  inferInstanceAs (Decidable (_ ∧ _))

/-- An integer that fits 64 bits, with a sign or without one. -/
structure IsWord (literal : NumberLiteral) : Prop where
  integer : literal.IsInteger
  low : -((wordSize / 2 : ℕ) : ℚ) ≤ literal.exact
  high : literal.exact < (wordSize : ℕ)

theorem IsInteger.exact_eq {literal : NumberLiteral} (h : literal.IsInteger) : literal.exact =
    ((if literal.negative then -(numberOf literal.whole : ℤ) else numberOf literal.whole : ℤ) : ℚ) := by
  rw [exact, h.1, h.2, List.append_nil]
  cases literal.negative <;> simp

/-- What is read as an integer is written as one, and fits 64 bits. -/
theorem integer_of_number? {literal : NumberLiteral} {k : ℤ}
    (h : literal.number? = some (.integer k)) : literal.IsInteger ∧
      k = (if literal.negative then -(numberOf literal.whole : ℤ) else numberOf literal.whole) ∧
      -(wordSize / 2 : ℕ) ≤ k ∧ k < wordSize := by
  have hdouble : literal.double?.map Number.double ≠ some (.integer k) := by
    cases literal.double? <;> simp
  have hword : maxWord < wordSize := by decide
  unfold number? at h
  dsimp only at h
  split at h
  · rename_i hinteger
    rw [Bool.and_eq_true, List.isEmpty_iff, Option.isNone_iff_eq_none] at hinteger
    refine ⟨hinteger, ?_⟩
    split at h <;> rename_i hnegative
    · split at h
      · cases h
        exact ⟨(if_pos hnegative).symm, by omega, by omega⟩
      · exact absurd h hdouble
    · split at h
      · cases h
        exact ⟨(if_neg hnegative).symm, by omega, by omega⟩
      · exact absurd h hdouble
  · exact absurd h hdouble

/-- What is read as an integer is what the digits say. -/
theorem exact_of_number? {literal : NumberLiteral} {k : ℤ}
    (h : literal.number? = some (.integer k)) : literal.exact = k := by
  obtain ⟨hinteger, rfl, -⟩ := integer_of_number? h
  exact hinteger.exact_eq

theorem isWord_of_number? {literal : NumberLiteral} {k : ℤ}
    (h : literal.number? = some (.integer k)) : literal.IsWord := by
  obtain ⟨hinteger, -, hlow, hhigh⟩ := integer_of_number? h
  refine ⟨hinteger, ?_, ?_⟩ <;> rw [exact_of_number? h]
  · exact_mod_cast hlow
  · exact_mod_cast hhigh

/-! ### The negative zero -/

theorem eq_zero_of_foldl {digits : List ℕ} {n : ℕ}
    (h : digits.foldl (fun n d => n * 10 + d) n = 0) : n = 0 := by
  induction digits generalizing n with
  | nil => exact h
  | cons d digits ih =>
    have hnext : n * 10 + d = 0 := ih h
    omega

theorem fittingDigits_zeros {digits : List ℕ} (h : numberOf digits = 0) :
    fittingDigits 0 digits = (0, digits.length) := by
  induction digits with
  | nil => rfl
  | cons d digits ih =>
    obtain rfl : d = 0 := by simpa using eq_zero_of_foldl (n := 0 * 10 + d) h
    rw [fittingDigits, if_neg (by decide), ih h]
    rfl

theorem double?_negativeZero {literal : NumberLiteral} (h : literal.IsInteger)
    (hnegative : literal.negative = true) (hzero : numberOf literal.whole = 0) :
    literal.double? = some (.zero true) := by
  have hread : scaleByTen 8 (.zero true) 0 = some (.zero true) := by decide
  rw [double?, fittingDigits_zeros hzero, h.1, h.2, hnegative]
  simpa [fittingDigits, Double.ofRatio] using hread

/-- An integer of 64 bits is read as what it is; there is no negative zero among the integers. -/
theorem number?_of_isWord {literal : NumberLiteral} (h : literal.IsWord) :
    (∃ k : ℤ, literal.number? = some (.integer k)) ∨
      literal.number? = some (.double (.zero true)) := by
  have hlow := h.low
  have hhigh := h.high
  rw [h.integer.exact_eq] at hlow hhigh
  have hinteger : (literal.fraction.isEmpty && literal.exponent.isNone) = true := by
    rw [h.integer.1, h.integer.2]
    rfl
  rw [number?, if_pos hinteger]
  by_cases hnegative : literal.negative = true
  · rw [if_pos hnegative] at hlow hhigh ⊢
    by_cases hzero : numberOf literal.whole = 0
    · right
      rw [if_neg (by omega), double?_negativeZero h.integer hnegative hzero]
      rfl
    · left
      have hfits : numberOf literal.whole ≤ wordSize / 2 := by
        rw [Int.cast_neg, neg_le_neg_iff, Int.cast_natCast, Nat.cast_le] at hlow
        exact hlow
      exact ⟨_, if_pos ⟨Nat.pos_of_ne_zero hzero, hfits⟩⟩
  · left
    rw [if_neg hnegative] at hhigh ⊢
    rw [Int.cast_natCast, Nat.cast_lt] at hhigh
    exact ⟨_, if_pos (Nat.le_sub_one_of_lt hhigh)⟩

end NumberLiteral

namespace Tree

mutual

def numbers : Tree → List NumberLiteral
  | .number literal => [literal]
  | .array items => itemNumbers items
  | .object members => memberNumbers members
  | .null | .bool _ | .string _ => []

def itemNumbers : List Tree → List NumberLiteral
  | [] => []
  | item :: items => numbers item ++ itemNumbers items

def memberNumbers : List (List Char × Tree) → List NumberLiteral
  | [] => []
  | (_, item) :: members => numbers item ++ memberNumbers members

end

end Tree

/-! ## What was read can be written -/

mutual

theorem legible_of_value? : ∀ (tree : Tree) {limit : Nat} {v : Value},
    Tree.value? limit tree = some v → (∀ n ∈ tree.numbers, n.IsWord) → Legible limit v
  | .null, _, _, h, _ => by
    cases h
    exact .null
  | .bool b, _, _, h, _ => by
    cases h
    exact .bool b
  | .number literal, _, _, h, hwords => by
    rw [Tree.value?] at h
    have hword : literal.IsWord := hwords literal (by simp [Tree.numbers])
    rcases NumberLiteral.number?_of_isWord hword with ⟨k, hk⟩ | hzero
    · rw [hk] at h
      cases h
      obtain ⟨-, -, hlow, hhigh⟩ := NumberLiteral.integer_of_number? hk
      exact .integer hlow hhigh
    · rw [hzero] at h
      cases h
      exact .negativeZero
  | .string raw, _, _, h, _ => by
    rw [Tree.value?] at h
    obtain ⟨s, -, rfl⟩ := Option.map_eq_some_iff.1 h
    exact .string _
  | .array items, limit, _, h, hwords => by
    rw [Tree.numbers] at hwords
    rw [Tree.value?] at h
    cases limit with
    | zero => cases h
    | succ limit =>
      obtain ⟨vs, hvs, rfl⟩ := Option.map_eq_some_iff.1 h
      exact .array (legible_of_values? items hvs hwords)
  | .object members, limit, _, h, hwords => by
    rw [Tree.numbers] at hwords
    rw [Tree.value?] at h
    cases limit with
    | zero => cases h
    | succ limit =>
      obtain ⟨ms, hms, rfl⟩ := Option.map_eq_some_iff.1 h
      refine .object (Entries.keys_nodup_putAll List.nodup_nil) fun m hm => ?_
      have hmem := (Entries.mem_of_mem_putAll hm).resolve_left List.not_mem_nil
      exact legible_of_members? members hms hwords m hmem

theorem legible_of_values? : ∀ (trees : List Tree) {limit : Nat} {vs : List Value},
    Tree.values? limit trees = some vs → (∀ n ∈ Tree.itemNumbers trees, n.IsWord) →
      ∀ v ∈ vs, Legible limit v
  | [], _, _, h, _ => by
    cases h
    simp
  | tree :: trees, _, _, h, hwords => by
    rw [Tree.itemNumbers, List.forall_mem_append] at hwords
    rw [Tree.values?] at h
    split at h
    · rename_i v vs hv hvs
      cases h
      exact List.forall_mem_cons.2 ⟨legible_of_value? tree hv hwords.1,
        legible_of_values? trees hvs hwords.2⟩
    · cases h

theorem legible_of_members? : ∀ (trees : List (List Char × Tree)) {limit : Nat} {ms : Members},
    Tree.members? limit trees = some ms → (∀ n ∈ Tree.memberNumbers trees, n.IsWord) →
      ∀ m ∈ ms, Legible limit m.2
  | [], _, _, h, _ => by
    cases h
    simp
  | (key, tree) :: trees, _, _, h, hwords => by
    rw [Tree.memberNumbers, List.forall_mem_append] at hwords
    rw [Tree.members?] at h
    split at h
    · rename_i k v ms _ hv hms
      cases h
      exact List.forall_mem_cons.2 ⟨legible_of_value? tree hv hwords.1,
        legible_of_members? trees hms hwords.2⟩
    · cases h

end

/-- What a text stands for can be written, if its numbers are integers of 64 bits. -/
theorem legible_of_read? {text : String} {tree : Tree} {v : Value}
    (hread : Tree.read? text.toList = some tree) (hwords : ∀ n ∈ tree.numbers, n.IsWord)
    (h : parse? text = some v) : Legible nestingLimit v := by
  rw [parse?, hread] at h
  exact legible_of_value? tree h hwords

end BundleLedger.Json
