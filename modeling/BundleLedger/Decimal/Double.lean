/-!
# Binary floating point

A `Double` is a finite floating point number of 64 bits, held exactly as mantissa times a power of
two. All arithmetic is done on natural numbers and rounded once, to the nearest double, a tie going
to the even mantissa.

Results:

* `roundDiv_mul`: a quotient without remainder is not moved.
-/
namespace BundleLedger.Decimal

/-- How many numbers of 64 bits there are. -/
def wordSize : Nat := 0x10000000000000000

/-- The finite double `±mantissa · 2^exponent`. The mantissa has 53 bits, or fewer when the
exponent is the least one. -/
structure Double where
  negative : Bool
  mantissa : Nat
  exponent : Int
  deriving DecidableEq, Repr

/-- `num / den` rounded to the nearest natural number, a tie to the even one. -/
def roundDiv (num den : Nat) : Nat :=
  let q := num / den
  let r := num % den
  if 2 * r < den then q else if den < 2 * r then q + 1 else q + q % 2

theorem roundDiv_mul {n den : Nat} (h : 0 < den) : roundDiv (n * den) den = n := by
  simp [roundDiv, Nat.mul_div_cancel _ h, h]

namespace Double

/-- The exponent of the least positive double. -/
def minExponent : Int := -1074

def maxExponent : Int := 971

/-- The least mantissa of 53 bits. -/
def leastFull : Nat := 0x10000000000000

def zero (negative : Bool) : Double := ⟨negative, 0, minExponent⟩

def isZero (d : Double) : Bool := d.mantissa == 0

/-- The same number with the other sign. -/
def neg (d : Double) : Double := { d with negative := !d.negative }

/-- The fraction `num / den / 2^e`. -/
def scale (num den : Nat) (e : Int) : Nat × Nat :=
  if 0 ≤ e then (num, den <<< e.toNat) else (num <<< (-e).toNat, den)

/-- The exponent for which `num / den` has a mantissa of 53 bits, but no exponent below the
least. -/
def exponentFor (num den : Nat) : Int :=
  let e := max minExponent ((Nat.log2 num : Int) - Nat.log2 den - 53)
  let (a, b) := scale num den e
  if a / b < 2 * leastFull then e else e + 1

/-- The double nearest to `±num / den`; `none` when that is beyond the greatest double. -/
def ofRatio (negative : Bool) (num den : Nat) : Option Double :=
  if num = 0 then some (zero negative) else
  let e := exponentFor num den
  let (a, b) := scale num den e
  let m := roundDiv a b
  let (m, e) := if m = 2 * leastFull then (leastFull, e + 1) else (m, e)
  if maxExponent < e then none else some ⟨negative, m, e⟩

/-- The double nearest to `±m · 2^e`. -/
def ofScaled (negative : Bool) (m : Nat) (e : Int) : Option Double :=
  if 0 ≤ e then ofRatio negative (m <<< e.toNat) 1 else ofRatio negative m (1 <<< (-e).toNat)

/-- The magnitude as a fraction. -/
def toRatio (d : Double) : Nat × Nat :=
  if 0 ≤ d.exponent then (d.mantissa <<< d.exponent.toNat, 1)
  else (d.mantissa, 1 <<< (-d.exponent).toNat)

/-- The rounded product. -/
def mul? (a b : Double) : Option Double :=
  ofScaled (a.negative != b.negative) (a.mantissa * b.mantissa) (a.exponent + b.exponent)

/-- The rounded quotient; the divisor is not zero. -/
def div? (a b : Double) : Option Double :=
  let (an, ad) := a.toRatio
  let (bn, bd) := b.toRatio
  ofRatio (a.negative != b.negative) (an * bd) (ad * bn)

/-- The double nearest to `±digits · 10^exponent`. An exponent so far out that the digits cannot
matter is decided without computing the power. -/
def ofDecimal (negative : Bool) (digits : Nat) (exponent : Int) : Option Double :=
  if digits = 0 then some (zero negative)
  else if 310 < exponent then none
  else if exponent + (Nat.log2 digits / 3 : Nat) + 1 < -330 then some (zero negative)
  else if 0 ≤ exponent then ofRatio negative (digits * Nat.pow 10 exponent.toNat) 1
  else ofRatio negative digits (Nat.pow 10 (-exponent).toNat)

/-- The integer that this double is, if it is one. -/
def toInt? (d : Double) : Option Int :=
  let (num, den) := d.toRatio
  if num % den = 0 then
    some (if d.negative then -(num / den : Nat) else (num / den : Nat))
  else none

end Double

end BundleLedger.Decimal
