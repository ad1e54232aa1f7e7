import BundleLedger.Decimal.Notation
import BundleLedger.Script.Literal
import Mathlib.Data.Nat.Digits.Lemmas

/-!
# Integers as text and as doubles

An integer that a double holds without loss survives the way through its decimal text: the text has
its digits, and rounding the number that these stand for to a double changes nothing.

Results:

* `decimalNumber_natText`: the digits of a number read back.
* `mantissa_lt_of_ofRatio`: what a fraction is rounded to has at most 53 bits.
* `ofDecimal_exact`: a whole number of 53 significant bits is its own nearest double.
-/
namespace BundleLedger.Decimal

/-! ## Decimal text -/

theorem digitsOf_go (fuel n : Nat) (acc : List Nat) (h : n ≤ fuel) :
    digitsOf.go fuel n acc = (Nat.digits 10 n).reverse ++ acc := by
  induction fuel generalizing n acc with
  | zero =>
    obtain rfl : n = 0 := by omega
    simp [digitsOf.go]
  | succ fuel ih =>
    simp only [digitsOf.go]
    split
    · rename_i hn
      simp [hn]
    · rename_i hn
      have hdigits : Nat.digits 10 n = n % 10 :: Nat.digits 10 (n / 10) :=
        Nat.digits_of_two_le_of_pos (by omega) (by omega)
      rw [ih (n / 10) _ (by omega), hdigits]
      simp

theorem digitsOf_eq (n : Nat) : digitsOf n = (Nat.digits 10 n).reverse := by
  rw [digitsOf, digitsOf_go n n [] (Nat.le_refl n), List.append_nil]

theorem digitChar_isDigit {d : Nat} (h : d < 10) : (digitChar d).isDigit = true := by
  have hall : ∀ d, d < 10 → (digitChar d).isDigit = true := by decide
  exact hall d h

theorem digitChar_value {d : Nat} (h : d < 10) : (digitChar d).toNat - 48 = d := by
  have hall : ∀ d, d < 10 → (digitChar d).toNat - 48 = d := by decide
  exact hall d h

theorem natText_isDigit (n : Nat) : ∀ c ∈ natText n, c.isDigit = true := by
  unfold natText
  split
  · simp
  · intro c hc
    obtain ⟨d, hd, rfl⟩ := List.mem_map.1 hc
    rw [digitsOf_eq, List.mem_reverse] at hd
    exact digitChar_isDigit (Nat.digits_lt_base (by omega) hd)

theorem natText_ne_nil (n : Nat) : natText n ≠ [] := by
  unfold natText
  split
  · decide
  · rename_i hn
    rw [digitsOf_eq, ne_eq, List.map_eq_nil_iff, List.reverse_eq_nil_iff]
    exact Nat.digits_ne_nil_iff_ne_zero.2 hn

/-- No leading zero stands in front of a number. -/
theorem natText_head {n : Nat} (hn : n ≠ 0) {c : Char} {rest : List Char} (h : natText n = c :: rest) :
    c ≠ '0' := by
  rw [natText, if_neg hn, digitsOf_eq] at h
  have hne : Nat.digits 10 n ≠ [] := Nat.digits_ne_nil_iff_ne_zero.2 hn
  have hlast := Nat.getLast_digit_ne_zero 10 hn
  have hlt := Nat.digits_lt_base (b := 10) (m := n) (by omega) (List.getLast_mem hne)
  have hhead : ((Nat.digits 10 n).reverse.map digitChar).head? =
      some (digitChar ((Nat.digits 10 n).getLast hne)) := by
    rw [List.head?_map, List.head?_reverse, List.getLast?_eq_some_getLast hne]
    rfl
  rw [h, List.head?_cons, Option.some.injEq] at hhead
  have hall : ∀ d, d < 10 → d ≠ 0 → digitChar d ≠ '0' := by decide
  exact hhead ▸ hall _ hlt hlast

theorem decimalNumber_digits (digits : List Nat) (h : ∀ d ∈ digits, d < 10) :
    Script.decimalNumber (digits.reverse.map digitChar) = Nat.ofDigits 10 digits := by
  rw [Script.decimalNumber, List.foldl_map, List.foldl_reverse]
  induction digits with
  | nil => rfl
  | cons d digits ih =>
    rw [List.foldr_cons, ih fun d hd => h d (List.mem_cons_of_mem _ hd),
      digitChar_value (h d List.mem_cons_self), Nat.ofDigits_cons, Nat.mul_comm, Nat.add_comm]

theorem decimalNumber_natText (n : Nat) : Script.decimalNumber (natText n) = n := by
  unfold natText
  split
  · rename_i hn
    rw [hn]
    rfl
  · rw [digitsOf_eq, decimalNumber_digits _ fun d hd => Nat.digits_lt_base (by omega) hd,
      Nat.ofDigits_digits]

/-! ## Exact doubles -/

namespace Double

/-- Whether a whole number has no more than 53 significant bits. -/
def Fits (n : Nat) : Prop := ∃ m k, n = m * 2 ^ k ∧ m < 2 * leastFull

theorem toInt?_eq_some_iff {d : Double} {n : Int} :
    d.toInt? = some n ↔ d.toRatio.1 % d.toRatio.2 = 0 ∧
      n = if d.negative then -((d.toRatio.1 / d.toRatio.2 : Nat) : Int)
        else ((d.toRatio.1 / d.toRatio.2 : Nat) : Int) := by
  unfold toInt?
  dsimp only
  split
  · rename_i h
    rw [Option.some.injEq, eq_comm]
    exact (and_iff_right h).symm
  · rename_i h
    simp [h]

theorem toInt?_neg {d : Double} {n : Int} (h : d.toInt? = some n) : d.neg.toInt? = some (-n) := by
  obtain ⟨hmod, hn⟩ := toInt?_eq_some_iff.1 h
  refine toInt?_eq_some_iff.2 ⟨hmod, ?_⟩
  have hratio : d.neg.toRatio = d.toRatio := rfl
  rw [hratio, hn, neg]
  cases d.negative <;> simp

/-! ### The mantissa -/

/-- One exponent further, the quotient is half as large. -/
theorem scale_succ (num den : Nat) (e : Int) :
    (scale num den (e + 1)).1 / (scale num den (e + 1)).2 =
      (scale num den e).1 / (scale num den e).2 / 2 := by
  unfold scale
  by_cases h0 : 0 ≤ e
  · have hnat : (e + 1).toNat = e.toNat + 1 := by omega
    rw [if_pos h0, if_pos (by omega), hnat, Nat.shiftLeft_succ, Nat.mul_comm 2, Nat.div_div_eq_div_mul]
  · have hnat : (-e).toNat = (-(e + 1)).toNat + 1 := by omega
    have hhalf : num <<< (-e).toNat / den / 2 = num <<< (-(e + 1)).toNat / den := by
      rw [hnat, Nat.shiftLeft_succ, Nat.div_div_eq_div_mul, Nat.mul_comm den,
        Nat.mul_div_mul_left _ _ (by omega)]
    rw [if_neg h0, hhalf]
    split
    · have hzero : (e + 1).toNat = 0 ∧ (-(e + 1)).toNat = 0 := by omega
      rw [hzero.1, hzero.2]
      rfl
    · rfl

theorem scale_lt (num : Nat) {den : Nat} (hd : den ≠ 0) {e : Int}
    (he : (Nat.log2 num : Int) - Nat.log2 den - 53 ≤ e) :
    (scale num den e).1 / (scale num den e).2 < 2 ^ 54 := by
  have hnum := Nat.lt_log2_self (n := num)
  have hden := Nat.log2_self_le hd
  unfold scale
  split
  · rw [Nat.shiftLeft_eq]
    refine Nat.div_lt_of_lt_mul ?_
    calc num < 2 ^ (Nat.log2 num + 1) := hnum
      _ ≤ 2 ^ (Nat.log2 den + e.toNat + 54) := Nat.pow_le_pow_right (by omega) (by omega)
      _ = 2 ^ Nat.log2 den * 2 ^ e.toNat * 2 ^ 54 := by rw [Nat.pow_add, Nat.pow_add]
      _ ≤ den * 2 ^ e.toNat * 2 ^ 54 :=
        Nat.mul_le_mul_right _ (Nat.mul_le_mul_right _ hden)
  · rw [Nat.shiftLeft_eq]
    refine Nat.div_lt_of_lt_mul ?_
    calc num * 2 ^ (-e).toNat < 2 ^ (Nat.log2 num + 1) * 2 ^ (-e).toNat :=
          Nat.mul_lt_mul_of_pos_right hnum (Nat.two_pow_pos _)
      _ = 2 ^ (Nat.log2 num + 1 + (-e).toNat) := (Nat.pow_add ..).symm
      _ ≤ 2 ^ (Nat.log2 den + 54) := Nat.pow_le_pow_right (by omega) (by omega)
      _ = 2 ^ Nat.log2 den * 2 ^ 54 := by rw [Nat.pow_add]
      _ ≤ den * 2 ^ 54 := Nat.mul_le_mul_right _ hden

theorem scale_exponentFor_lt (num : Nat) {den : Nat} (hd : den ≠ 0) :
    (scale num den (exponentFor num den)).1 / (scale num den (exponentFor num den)).2 <
      2 * leastFull := by
  have hfull : 2 * leastFull = 2 ^ 53 := by decide
  unfold exponentFor
  dsimp only
  split
  · assumption
  · have hlt := scale_lt num hd (Int.le_max_right minExponent _)
    rw [scale_succ, hfull]
    omega

/-- What a fraction is rounded to has at most 53 bits. -/
theorem mantissa_lt_of_ofRatio {negative : Bool} {num den : Nat} (hd : den ≠ 0) {d : Double}
    (h : ofRatio negative num den = some d) : d.mantissa < 2 * leastFull := by
  have hpos : 0 < leastFull := by decide
  unfold ofRatio at h
  split at h
  · cases h
    exact Nat.mul_pos (by omega) hpos
  · have hlt := scale_exponentFor_lt num hd
    dsimp only at h
    split at h
    · split at h
      · cases h
      · cases h
        show leastFull < 2 * leastFull
        omega
    · rename_i hne
      split at h
      · cases h
      · cases h
        have hround : roundDiv (scale num den (exponentFor num den)).1
            (scale num den (exponentFor num den)).2 ≤ 2 * leastFull := by
          unfold roundDiv
          dsimp only
          split
          · omega
          · split <;> omega
        exact Nat.lt_of_le_of_ne hround hne

/-! ### Whole numbers -/

theorem fits_of_toInt? {d : Double} {n : Int} (hm : d.mantissa < 2 * leastFull)
    (h : d.toInt? = some n) : Fits n.natAbs := by
  obtain ⟨-, hn⟩ := toInt?_eq_some_iff.1 h
  have habs : n.natAbs = d.toRatio.1 / d.toRatio.2 := by
    rw [hn]
    split
    · rw [Int.natAbs_neg, Int.natAbs_natCast]
    · rw [Int.natAbs_natCast]
  rw [habs, toRatio]
  split
  · refine ⟨d.mantissa, d.exponent.toNat, ?_, hm⟩
    rw [Nat.div_one, Nat.shiftLeft_eq]
  · refine ⟨d.mantissa / 1 <<< (-d.exponent).toNat, 0, by simp, ?_⟩
    exact Nat.lt_of_le_of_lt (Nat.div_le_self _ _) hm

/-- The exponent of a positive whole number. -/
theorem exponentFor_one {n : Nat} (hn : n ≠ 0) (hlog : Nat.log2 n ≤ 62) :
    exponentFor n 1 = (Nat.log2 n : Int) - 52 := by
  have hlow := Nat.log2_self_le hn
  have hlog1 : Nat.log2 1 = 0 := by decide
  have hmax : max minExponent ((Nat.log2 n : Int) - (0 : Nat) - 53) = (Nat.log2 n : Int) - 53 := by
    rw [minExponent]
    omega
  unfold exponentFor
  rw [hlog1, hmax]
  have hge : ¬ (scale n 1 ((Nat.log2 n : Int) - 53)).1 / (scale n 1 ((Nat.log2 n : Int) - 53)).2 <
      2 * leastFull := by
    have hfull : 2 * leastFull = 2 ^ 53 := by decide
    rw [hfull, Nat.not_lt]
    unfold scale
    split
    · rename_i he
      rw [Nat.one_shiftLeft, Nat.le_div_iff_mul_le (Nat.two_pow_pos _), ← Nat.pow_add]
      have hsum : 53 + ((Nat.log2 n : Int) - 53).toNat = Nat.log2 n := by omega
      rwa [hsum]
    · rename_i he
      rw [Nat.div_one, Nat.shiftLeft_eq]
      have hsum : 2 ^ 53 = 2 ^ Nat.log2 n * 2 ^ (-((Nat.log2 n : Int) - 53)).toNat := by
        rw [← Nat.pow_add]
        congr 1
        omega
      rw [hsum]
      exact Nat.mul_le_mul_right _ hlow
  dsimp only
  rw [if_neg hge]
  omega

/-- Scaled to 53 bits, a number that fits stays whole. -/
theorem scale_exact {n : Nat} (hn : n ≠ 0) (hfits : Fits n) :
    ∃ q, (scale n 1 ((Nat.log2 n : Int) - 52)).1 = q * (scale n 1 ((Nat.log2 n : Int) - 52)).2 ∧
      0 < (scale n 1 ((Nat.log2 n : Int) - 52)).2 ∧ q < 2 * leastFull ∧
      (Double.toInt? ⟨false, q, (Nat.log2 n : Int) - 52⟩) = some n := by
  have hlow := Nat.log2_self_le hn
  have hhigh := Nat.lt_log2_self (n := n)
  have hfull : 2 * leastFull = 2 ^ 53 := by decide
  unfold scale
  split
  · rename_i he
    -- the trailing zeros of the number make up for the division
    obtain ⟨m, k, hmk, hm⟩ := hfits
    rw [hfull] at hm
    obtain ⟨e, hlog⟩ : ∃ e, Nat.log2 n = e + 52 := ⟨Nat.log2 n - 52, by omega⟩
    have he' : ((Nat.log2 n : Int) - 52).toNat = e := by omega
    have hk : e ≤ k := by
      have h1 : 2 ^ (e + 52) < 2 ^ (53 + k) := by
        rw [← hlog, Nat.pow_add]
        calc 2 ^ Nat.log2 n ≤ m * 2 ^ k := hmk ▸ hlow
          _ < 2 ^ 53 * 2 ^ k := Nat.mul_lt_mul_of_pos_right hm (Nat.two_pow_pos k)
      have h2 := (Nat.pow_lt_pow_iff_right (by omega)).1 h1
      omega
    have hq : n = m * 2 ^ (k - e) * 2 ^ e := by
      rw [Nat.mul_assoc, ← Nat.pow_add, Nat.sub_add_cancel hk]
      exact hmk
    refine ⟨m * 2 ^ (k - e), ?_, ?_, ?_, ?_⟩
    · rw [he', Nat.one_shiftLeft]
      exact hq
    · rw [Nat.one_shiftLeft]
      exact Nat.two_pow_pos _
    · rw [hfull]
      refine Nat.lt_of_mul_lt_mul_right (a := 2 ^ e) ?_
      rw [← hq, ← Nat.pow_add, show 53 + e = Nat.log2 n + 1 by omega]
      exact hhigh
    · refine toInt?_eq_some_iff.2 ⟨?_, ?_⟩ <;> unfold toRatio <;> rw [if_pos he, he', Nat.shiftLeft_eq]
      · exact Nat.mod_one _
      · simp [← hq]
  · rename_i he
    have hpow : 2 ^ (-((Nat.log2 n : Int) - 52)).toNat * 2 ^ (Nat.log2 n + 1) = 2 ^ 53 := by
      rw [← Nat.pow_add]
      congr 1
      omega
    have hpos := Nat.two_pow_pos (-((Nat.log2 n : Int) - 52)).toNat
    refine ⟨n <<< (-((Nat.log2 n : Int) - 52)).toNat, by simp, by simp, ?_, ?_⟩
    · rw [hfull, Nat.shiftLeft_eq, ← hpow, Nat.mul_comm]
      exact Nat.mul_lt_mul_of_pos_left hhigh hpos
    · refine toInt?_eq_some_iff.2 ⟨?_, ?_⟩ <;> unfold toRatio <;>
        rw [if_neg he, Nat.shiftLeft_eq, Nat.one_shiftLeft]
      · exact Nat.mul_mod_left _ _
      · simp

theorem ofRatio_exact {n : Nat} (hfits : Fits n) (hn : n < 2 ^ 63) :
    ∃ d, ofRatio false n 1 = some d ∧ d.toInt? = some (n : Int) := by
  by_cases h0 : n = 0
  · subst h0
    exact ⟨zero false, rfl, by decide⟩
  · have hlog : Nat.log2 n ≤ 62 := by
      have := (Nat.log2_lt h0).2 hn
      omega
    obtain ⟨q, hscale, hpos, hq, hint⟩ := scale_exact h0 hfits
    refine ⟨_, ?_, hint⟩
    unfold ofRatio
    rw [if_neg h0, exponentFor_one h0 hlog]
    dsimp only
    have hne : ¬ q = 2 * leastFull := by omega
    rw [hscale, roundDiv_mul hpos, if_neg hne]
    dsimp only
    rw [if_neg (by rw [maxExponent]; omega)]

/-- A whole number that fits is its own nearest double. -/
theorem ofDecimal_exact {n : Nat} (hfits : Fits n) (hn : n < 2 ^ 63) :
    ∃ d, ofDecimal false n 0 = some d ∧ d.toInt? = some (n : Int) := by
  unfold ofDecimal
  split
  · rename_i h0
    subst h0
    exact ⟨zero false, rfl, by decide⟩
  · rw [if_neg (by decide), if_neg (by omega), if_pos (Int.le_refl 0)]
    simpa using ofRatio_exact hfits hn

end Double

end BundleLedger.Decimal
