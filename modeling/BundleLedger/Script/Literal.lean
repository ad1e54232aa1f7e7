import BundleLedger.Decimal.Double
import BundleLedger.Json.Escape
import BundleLedger.Text.Class.Identifier

/-!
# Literals of scripts

The characters that separate the tokens of a script or end a line, and what the inside of a string,
of a template or of a number stands for. Strings may hold halves of
surrogate pairs, which no text can hold: in a string with such a half, each half is written as a
replacement character and four hexadecimal digits, and so is every replacement character.

Results:

* `encodeCodes_plain`: without halves of pairs, the characters stay as they are.
-/
namespace BundleLedger.Script

open BundleLedger.Decimal
open BundleLedger.Json (hexValue? hexDigit fourHex? isHighSurrogate isLowSurrogate)

/-! ## Characters -/

def isLineEnd (c : Char) : Bool := c == '\n' || c == '\r' || c == '\u2028' || c == '\u2029'

/-- Whether `c` separates tokens within a line. -/
def isBlank (c : Char) : Bool :=
  let n := c.toNat
  n == 0x9 || n == 0xb || n == 0xc || n == 0x20 || n == 0x85 || n == 0xa0 || n == 0x1680 ||
  (0x2000 ≤ n && n ≤ 0x200b) || n == 0x202f || n == 0x205f || n == 0x3000 || n == 0xfeff

/-! ## Escapes -/

/-- The leading hexadecimal digits, as a number, and how they go on; no number without a digit. -/
def hexNumber (s : List Char) : Option (Nat × List Char) :=
  let digits := s.takeWhile fun c => (hexValue? c).isSome
  if digits = [] then none
  else some (digits.foldl (fun n c => n * 16 + (hexValue? c).getD 0) 0, s.drop digits.length)

def fourDigits? : List Char → Option (Nat × List Char)
  | a :: b :: c :: d :: s => (fourHex? a b c d).map (·, s)
  | _ => none

def bracedCode? (s : List Char) : Option (Nat × List Char) :=
  match hexNumber s with
  | some (n, '}' :: rest) => if n ≤ 0x10ffff then some (n, rest) else none
  | _ => none

/-- The code that an escape stands for, from after its `u`, and what follows. Two escapes in a row
may be the halves of one code. -/
def unicodeEscape? (s : List Char) : Option (Nat × List Char) :=
  match s with
  | '{' :: s => bracedCode? s
  | s =>
    match fourDigits? s with
    | none => none
    | some (n, rest) =>
      if isHighSurrogate n then
        match rest with
        | '\\' :: 'u' :: next =>
          match fourDigits? next with
          | some (m, after) =>
            if isLowSurrogate m then
              some (0x10000 + (n - 0xd800) * 0x400 + (m - 0xdc00), after)
            else some (n, rest)
          | none => some (n, rest)
        | _ => some (n, rest)
      else some (n, rest)

def octalValue? (c : Char) : Option Nat := if '0' ≤ c ∧ c ≤ '7' then some (c.toNat - 48) else none

/-- An octal escape of at most three digits and at most 255, and what follows. -/
def octalEscape (s : List Char) : Nat × List Char :=
  let limit := if s.head?.any (· ≤ '3') then 3 else 2
  let digits := (s.takeWhile fun c => (octalValue? c).isSome).take limit
  (digits.foldl (fun n c => n * 8 + (octalValue? c).getD 0) 0, s.drop digits.length)

/-- What an escape stands for, from after its backslash, and what follows. Templates know no octal
escapes. -/
def escape? (inTemplate : Bool) : List Char → Option (List Nat × List Char)
  | [] => none
  | '\r' :: '\n' :: s => some ([], s)
  | c :: s =>
    if isLineEnd c then some ([], s)
    else if c = 'u' then (unicodeEscape? s).map fun (n, rest) => ([n], rest)
    else if c = 'x' then
      match s with
      | a :: b :: s =>
        match hexValue? a, hexValue? b with
        | some a, some b => some ([a * 16 + b], s)
        | _, _ => none
      | _ => none
    else if c.isDigit then
      if inTemplate then
        if c = '0' ∧ !s.head?.any Char.isDigit then some ([0], s) else none
      else if (octalValue? c).isSome then
        let (n, rest) := octalEscape (c :: s)
        some ([n], rest)
      else some ([c.toNat], s)
    else if c = 'n' then some ([10], s)
    else if c = 't' then some ([9], s)
    else if c = 'b' then some ([8], s)
    else if c = 'v' then some ([11], s)
    else if c = 'f' then some ([12], s)
    else if c = 'r' then some ([13], s)
    else some ([c.toNat], s)

/-- The codes of what stands between quotes; at most as many steps as the fuel says. In templates
every way to end a line reads as a line feed. -/
def codes? (inTemplate : Bool) : Nat → List Char → Option (List Nat)
  | _, [] => some []
  | 0, _ :: _ => none
  | fuel + 1, c :: s =>
    if c = '\\' then
      match escape? inTemplate s with
      | some (ns, rest) => (codes? inTemplate fuel rest).map (ns ++ ·)
      | none => none
    else if inTemplate ∧ c = '\r' then
      (codes? inTemplate fuel (if s.head? = some '\n' then s.tail else s)).map (10 :: ·)
    else (codes? inTemplate fuel s).map (c.toNat :: ·)

def isHalf (n : Nat) : Bool := isHighSurrogate n || isLowSurrogate n

/-- The replacement character and a code as four hexadecimal digits. -/
def encodeHalf (n : Nat) : List Char :=
  ['\ufffd', hexDigit (n / 0x1000 % 16), hexDigit (n / 0x100 % 16), hexDigit (n / 16 % 16),
    hexDigit (n % 16)]

def encodeCodes (ns : List Nat) : List Char :=
  if ns.any isHalf then
    ns.flatMap fun n => if isHalf n || n == 0xfffd then encodeHalf n else [Char.ofNat n]
  else ns.map Char.ofNat

theorem encodeCodes_plain (s : List Char) (h : ∀ c ∈ s, isHalf c.toNat = false) :
    encodeCodes (s.map Char.toNat) = s := by
  have h1 : (s.map Char.toNat).any isHalf = false := by
    simp only [List.any_map, List.any_eq_false, Function.comp_apply]
    intro c hc; simp [h c hc]
  rw [encodeCodes, h1]
  simp [Function.comp_def]

/-- The text that stands between quotes as `raw`. -/
def stringValue? (raw : List Char) : Option String :=
  (codes? false raw.length raw).map fun ns => String.ofList (encodeCodes ns)

/-- The text of a template part that is written as `raw`. -/
def templateValue? (raw : List Char) : Option String :=
  (codes? true raw.length raw).map fun ns => String.ofList (encodeCodes ns)

/-! ## Names -/

/-- The name that is written as `raw`, at most as many steps as the fuel says. -/
def nameChars? : Nat → Bool → List Char → Option (List Char)
  | _, _, [] => some []
  | 0, _, _ :: _ => none
  | fuel + 1, first, c :: s =>
    let ok (c : Char) : Bool := if first then Text.isIdentifierStart c else Text.isIdentifierPart c
    match c, s with
    | '\\', 'u' :: '{' :: s =>
      match bracedCode? s with
      | some (n, rest) =>
        if !isHalf n && ok (Char.ofNat n) then
          (nameChars? fuel false rest).map (Char.ofNat n :: ·)
        else none
      | none => none
    | '\\', 'u' :: s =>
      match fourDigits? s with
      | some (n, rest) =>
        if !isHalf n && ok (Char.ofNat n) then
          (nameChars? fuel false rest).map (Char.ofNat n :: ·)
        else none
      | none => none
    | c, s => if ok c then (nameChars? fuel false s).map (c :: ·) else none

/-- The name that is written as `raw`; it has at least one character. -/
def nameValue? (raw : List Char) : Option String :=
  if raw = [] then none else (nameChars? raw.length true raw).map String.ofList

/-! ## Numbers -/

/-- The digits of a number without its separators. A separator stands between two digits. -/
def separated? (isDigit : Char → Bool) (s : List Char) : Option (List Char × List Char) :=
  let span := s.takeWhile fun c => isDigit c || c == '_'
  let ok := span.head?.any isDigit && span.getLast?.any isDigit &&
    !(span.zip span.tail).any fun (a, b) => a == '_' && b == '_'
  if ok then some (span.filter (· != '_'), s.drop span.length) else none

def decimalNumber (s : List Char) : Nat := s.foldl (fun n c => n * 10 + (c.toNat - 48)) 0

/-- The double of digits in a base that is a power of two: exact for at most 64 bits, and rounded
after each digit for more. -/
def radixValue (bits : Nat) (digits : List Char) : Option Double :=
  let value (c : Char) : Nat := (hexValue? c).getD 0
  if digits.length * bits ≤ 64 then
    Double.ofRatio false (digits.foldl (fun n c => (n <<< bits) + value c) 0) 1
  else
    digits.foldl (fun d? c => d?.bind fun d =>
      let (num, den) := d.toRatio
      Double.ofRatio false ((num <<< bits) + value c * den) den) (some (Double.zero false))

end BundleLedger.Script
