import BundleLedger.Decimal.Double

/-!
# The shortest decimal that reads back

The decimals that round to a double form an interval around it. For one digit, two digits, and so
on up to seventeen, `shortest` tests the two neighbours of the double on the grid of decimals with
that many digits. The first grid with a neighbour inside the interval gives the digits; of two
neighbours the nearer is taken, and the even one when both are as near.
-/
namespace BundleLedger.Decimal

/-- The positive decimal `0.d₁d₂d₃… · 10^point`. The first digit is not zero. -/
structure Digits where
  digits : List Nat
  point : Int
  deriving DecidableEq, Repr

/-- The decimal digits of a natural number, the most significant first; none for zero. -/
def digitsOf (n : Nat) : List Nat :=
  go n n []
where
  /-- `acc` holds the digits found so far. -/
  go : Nat → Nat → List Nat → List Nat
    | 0, _, acc => acc
    | fuel + 1, n, acc => if n = 0 then acc else go fuel (n / 10) (n % 10 :: acc)

/-- The numerator and denominator of `num / den / 10^k`. -/
def scaleTen (num den : Nat) (k : Int) : Nat × Nat :=
  if 0 ≤ k then (num, den * Nat.pow 10 k.toNat) else (num * Nat.pow 10 (-k).toNat, den)

/-- The `k` with `10^(k-1) ≤ num / den < 10^k`. It is one of five values around an estimate from
the binary logarithm. -/
def decimalPoint (num den : Nat) : Int :=
  let estimate := (((Nat.log2 num : Int) - Nat.log2 den) * 30103).fdiv 100000
  let below (k : Int) : Bool := let (a, b) := scaleTen num den k; a < b
  (([-1, 0, 1, 2, 3] : List Int).map (estimate + ·)).find? below |>.getD (estimate + 3)

/-- The interval of the fractions that round to a positive double, and whether its ends belong to
it. All three numerators are over one denominator. -/
structure Interval where
  low : Nat
  value : Nat
  high : Nat
  den : Nat
  closed : Bool

/-- The interval of `d`: half a unit to both sides, but a quarter below a power of two. -/
def interval (d : Double) : Interval :=
  let low := if d.mantissa = Double.leastFull ∧ d.exponent ≠ Double.minExponent
    then 4 * d.mantissa - 1 else 4 * d.mantissa - 2
  let e := d.exponent - 2
  let up (n : Nat) : Nat := if 0 ≤ e then n <<< e.toNat else n
  { low := up low
    value := up (4 * d.mantissa)
    high := up (4 * d.mantissa + 2)
    den := if 0 ≤ e then 1 else 1 <<< (-e).toNat
    closed := d.mantissa % 2 == 0 }

/-- The neighbour of the value on the grid of multiples of `10^k` that lies in the interval. -/
def Interval.onGrid? (i : Interval) (k : Int) : Option Nat :=
  let (num, den) := scaleTen i.value i.den k
  let inside (n : Nat) : Bool :=
    let (a, b) := scaleTen 1 1 (-k)
    let x := n * a * i.den
    let lo := i.low * b
    let hi := i.high * b
    if i.closed then lo ≤ x && x ≤ hi else lo < x && x < hi
  let down := num / den
  let nearest := roundDiv num den
  if inside nearest then some nearest
  else if inside down then some down
  else if inside (down + 1) then some (down + 1)
  else none

/-- The digits of `n` without trailing zeros, where `n` counts multiples of `10^k`. -/
def Digits.ofGrid (n : Nat) (k : Int) : Digits :=
  let ds := digitsOf n
  ⟨(ds.reverse.dropWhile (· == 0)).reverse, k + ds.length⟩

/-- The shortest digits that read back as the positive double `d`. -/
def shortest (d : Double) : Digits :=
  let i := interval d
  let point := decimalPoint i.value i.den
  let grids := (List.range 17).map fun (n : Nat) => point - ((n : Int) + 1)
  match grids.findSome? fun k => (i.onGrid? k).map (Digits.ofGrid · k) with
  | some digits => digits
  | none => Digits.ofGrid (roundDiv (scaleTen i.value i.den (point - 17)).1
      (scaleTen i.value i.den (point - 17)).2) (point - 17)

end BundleLedger.Decimal
