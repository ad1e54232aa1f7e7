import BundleLedger.Decimal.Shortest

/-!
# Writing doubles

A `Style` says how digits become text: between which decimal exponents a number is written
positionally, and whether a whole number keeps `.0`. Outside of that range a number has one digit
before the point and an exponent with its sign.
-/
namespace BundleLedger.Decimal

/-- How a double is written. `positional` says whether the decimal exponent (of `d.ddd · 10^e`) is
written without an exponent. -/
structure Style where
  positional : Int → Bool
  keepsPoint : Bool

def digitChar (n : Nat) : Char := Char.ofNat (48 + n)

def natText (n : Nat) : List Char :=
  if n = 0 then ['0'] else (digitsOf n).map digitChar

def intText : Int → List Char
  | .ofNat n => natText n
  | .negSucc n => '-' :: natText (n + 1)

/-- `0.d₁d₂… · 10^point` without an exponent. -/
def positionalText (keepsPoint : Bool) (d : Digits) : List Char :=
  let text := d.digits.map digitChar
  if d.point ≤ 0 then '0' :: '.' :: List.replicate (-d.point).toNat '0' ++ text
  else
    let whole := d.point.toNat
    if text.length ≤ whole then
      text ++ List.replicate (whole - text.length) '0' ++ (if keepsPoint then ['.', '0'] else [])
    else text.take whole ++ '.' :: text.drop whole

/-- `d₁.d₂…e±x`. -/
def scientificText (d : Digits) : List Char :=
  let e := d.point - 1
  let text := d.digits.map digitChar
  text.take 1 ++ (if text.length ≤ 1 then [] else '.' :: text.drop 1) ++
    'e' :: (if e < 0 then '-' else '+') :: natText e.natAbs

/-- The text of a double. -/
def Style.write (style : Style) (d : Double) : List Char :=
  let sign := if d.negative then ['-'] else []
  if d.isZero then sign ++ (if style.keepsPoint then ['0', '.', '0'] else ['0'])
  else
    let digits := shortest d
    sign ++ (if style.positional (digits.point - 1)
      then positionalText style.keepsPoint digits else scientificText digits)

end BundleLedger.Decimal
