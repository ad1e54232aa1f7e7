import BundleLedger.Json.Escape
import BundleLedger.Json.Value

/-!
# The grammar of JSON

`Tree.read?` checks a text against the grammar and keeps its tree, with numbers and strings as they
are written. What a number or a string stands for is decided by `Tree.value?`, so that a part of a
document that nobody looks at is never asked for its meaning.

A number without fraction and exponent is whole if it fits 64 bits. Any other is a double: the
leading digits that fit an unsigned 64-bit number are rounded, then scaled by a rounded power of
ten.
-/
namespace BundleLedger.Json

open BundleLedger.Decimal

structure NumberLiteral where
  negative : Bool
  whole : List Nat
  fraction : List Nat
  exponent : Option Int
  deriving Repr

/-- A document as it is written: strings hold what stands between their quotes. -/
inductive Tree where
  | null
  | bool (b : Bool)
  | number (literal : NumberLiteral)
  | string (raw : List Char)
  | array (items : List Tree)
  | object (members : List (List Char × Tree))
  deriving Repr, Inhabited

/-! ## Reading the grammar -/

/-- Whether `c` may stand between tokens. -/
def isSpace (c : Char) : Bool := c == ' ' || c == '\n' || c == '\t' || c == '\r'

/-- Without leading blanks. -/
def skipSpace (s : List Char) : List Char := s.dropWhile isSpace

def digitValue (c : Char) : Nat := c.toNat - 48

/-- The leading decimal digits, as numbers, and the rest. -/
def spanDigits (s : List Char) : List Nat × List Char :=
  ((s.takeWhile Char.isDigit).map digitValue, s.dropWhile Char.isDigit)

def numberOf (digits : List Nat) : Nat := digits.foldl (fun n d => n * 10 + d) 0

/-- The exponent of a number and the rest; no exponent is fine, a broken one is not. -/
def readExponent : List Char → Option (Option Int × List Char)
  | [] => some (none, [])
  | c :: s =>
    if c = 'e' ∨ c = 'E' then
      let (negative, s) := match s with
        | '+' :: s => (false, s)
        | '-' :: s => (true, s)
        | s => (false, s)
      match spanDigits s with
      | ([], _) => none
      | (digits, rest) =>
        let n : Int := numberOf digits
        some (some (if negative then -n else n), rest)
    else some (none, c :: s)

/-- The digits after a decimal point and the rest; no point is fine, a point without digits is
not. -/
def readFraction : List Char → Option (List Nat × List Char)
  | '.' :: s =>
    match spanDigits s with
    | ([], _) => none
    | (digits, rest) => some (digits, rest)
  | s => some ([], s)

/-- A number without its sign. A leading zero stands alone. -/
def readMagnitude (negative : Bool) (s : List Char) : Option (NumberLiteral × List Char) := do
  let (digits, rest) := spanDigits s
  match digits with
  | [] => none
  | 0 :: _ :: _ => none
  | whole =>
    let (fraction, rest) ← readFraction rest
    let (exponent, rest) ← readExponent rest
    return (⟨negative, whole, fraction, exponent⟩, rest)

/-- What stands between the quotes, from after the opening one, and the rest after the closing one.
Control characters must be escaped, and escapes must be well formed. -/
def readQuoted : List Char → Option (List Char × List Char)
  | [] => none
  | '"' :: s => some ([], s)
  | '\\' :: 'u' :: a :: b :: c :: d :: s =>
    if (fourHex? a b c d).isSome then
      (readQuoted s).map fun (raw, rest) => ('\\' :: 'u' :: a :: b :: c :: d :: raw, rest)
    else none
  | '\\' :: e :: s =>
    if (escaped? e).isSome then (readQuoted s).map fun (raw, rest) => ('\\' :: e :: raw, rest)
    else none
  | c :: s =>
    if c.toNat < 32 ∨ c = '\\' then none
    else (readQuoted s).map fun (raw, rest) => (c :: raw, rest)

def readWord (s : List Char) : Option (Tree × List Char) :=
  match s with
  | 'n' :: 'u' :: 'l' :: 'l' :: rest => some (.null, rest)
  | 't' :: 'r' :: 'u' :: 'e' :: rest => some (.bool true, rest)
  | 'f' :: 'a' :: 'l' :: 's' :: 'e' :: rest => some (.bool false, rest)
  | _ => none

namespace Tree

mutual

/-- One value, after blanks. The fuel is at least the number of characters. -/
def readValue : Nat → List Char → Option (Tree × List Char)
  | 0, _ => none
  | fuel + 1, s =>
    match skipSpace s with
    | [] => none
    | c :: s =>
      if c = '{' then
        match skipSpace s with
        | '}' :: rest => some (.object [], rest)
        | s => (readMembers fuel s).map fun (members, rest) => (.object members, rest)
      else if c = '[' then
        match skipSpace s with
        | ']' :: rest => some (.array [], rest)
        | s => (readItems fuel s).map fun (items, rest) => (.array items, rest)
      else if c = '"' then (readQuoted s).map fun (raw, rest) => (.string raw, rest)
      else if c = '-' then (readMagnitude true s).map fun (n, rest) => (.number n, rest)
      else if c.isDigit then (readMagnitude false (c :: s)).map fun (n, rest) => (.number n, rest)
      else readWord (c :: s)

def readItems : Nat → List Char → Option (List Tree × List Char)
  | 0, _ => none
  | fuel + 1, s =>
    match readValue fuel s with
    | none => none
    | some (item, rest) =>
      match skipSpace rest with
      | ']' :: rest => some ([item], rest)
      | ',' :: rest => (readItems fuel rest).map fun (items, rest) => (item :: items, rest)
      | _ => none

def readMembers : Nat → List Char → Option (List (List Char × Tree) × List Char)
  | 0, _ => none
  | fuel + 1, s =>
    match skipSpace s with
    | '"' :: s =>
      match readQuoted s with
      | none => none
      | some (key, rest) =>
        match skipSpace rest with
        | ':' :: rest =>
          match readValue fuel rest with
          | none => none
          | some (value, rest) =>
            match skipSpace rest with
            | '}' :: rest => some ([(key, value)], rest)
            | ',' :: rest =>
              (readMembers fuel rest).map fun (members, rest) => ((key, value) :: members, rest)
            | _ => none
        | _ => none
    | _ => none

end

/-- The tree of a document: one value with nothing but blanks around it. -/
def read? (s : List Char) : Option Tree :=
  match readValue (s.length + 1) s with
  | some (tree, rest) => if skipSpace rest = [] then some tree else none
  | none => none

end Tree

/-! ## What the tree stands for -/

/-- The greatest number of 64 bits without sign. -/
def maxWord : Nat := wordSize - 1

/-- The number of the leading digits that fit 64 bits when they follow on `n`, and how many digits
those are. -/
def fittingDigits (n : Nat) : List Nat → Nat × Nat
  | [] => (n, 0)
  | d :: digits =>
    if maxWord < n * 10 + d then (n, 0)
    else let (m, count) := fittingDigits (n * 10 + d) digits; (m, count + 1)

/-- `d` scaled by `10^exponent`, in steps of at most `10^308`; `none` beyond the greatest
double. -/
def scaleByTen : Nat → Double → Int → Option Double
  | 0, d, _ => some d
  | fuel + 1, d, exponent =>
    if exponent.natAbs ≤ 308 then
      match Double.ofDecimal false 1 exponent.natAbs with
      | some power => if 0 ≤ exponent then d.mul? power else d.div? power
      | none => none
    else if d.isZero then some d
    else if 0 ≤ exponent then none
    else
      match (Double.ofDecimal false 1 308).bind d.div? with
      | some d => scaleByTen fuel d (exponent + 308)
      | none => none

namespace NumberLiteral

/-- The double that a number with a fraction, an exponent or too many digits stands for. -/
def double? (literal : NumberLiteral) : Option Double :=
  let (n, used) := fittingDigits 0 literal.whole
  let (n, places) := fittingDigits n literal.fraction
  let exponent : Int := ((literal.whole.length : Int) - used) - places + literal.exponent.getD 0
  match Double.ofRatio literal.negative n 1 with
  | some d => scaleByTen 8 d exponent
  | none => none

def number? (literal : NumberLiteral) : Option Number :=
  let n := numberOf literal.whole
  if literal.fraction.isEmpty && literal.exponent.isNone then
    if literal.negative then
      if 0 < n ∧ n ≤ wordSize / 2 then some (.integer (-n)) else literal.double?.map .double
    else if n ≤ maxWord then some (.integer n)
    else literal.double?.map .double
  else literal.double?.map .double

end NumberLiteral

def nestingLimit : Nat := 127

namespace Tree

mutual

/-- The value of a tree in which at most `limit` arrays and objects are nested. -/
def value? (limit : Nat) : Tree → Option Value
  | .null => some .null
  | .bool b => some (.bool b)
  | .number literal => literal.number?.map .number
  | .string raw => (decode raw).map fun s => .string (String.ofList s)
  | .array items =>
    if limit = 0 then none else (values? (limit - 1) items).map .array
  | .object members =>
    if limit = 0 then none else (members? (limit - 1) members).map fun ms => .object (Entries.ofPairs ms)

def values? (limit : Nat) : List Tree → Option (List Value)
  | [] => some []
  | item :: items =>
    match value? limit item, values? limit items with
    | some v, some vs => some (v :: vs)
    | _, _ => none

/-- The members of an object, repeated keys included. -/
def members? (limit : Nat) : List (List Char × Tree) → Option (List (String × Value))
  | [] => some []
  | (key, item) :: items =>
    match decode key, value? limit item, members? limit items with
    | some k, some v, some vs => some ((String.ofList k, v) :: vs)
    | _, _, _ => none

end

end Tree

/-- The value of a JSON text. -/
def parse? (text : String) : Option Value := (Tree.read? text.toList).bind (Tree.value? nestingLimit)

end BundleLedger.Json
