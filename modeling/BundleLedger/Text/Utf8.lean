/-!
# Bytes and text

Bytes are read as UTF-8. Where they are no text, the longest run that could have begun a character
counts as one mistake; `lossy` writes a replacement character for each. What works on the bytes
themselves takes them as octets, a text of one character for each byte, so that it is written with
the same operations as what works on characters.

Results:

* `byteLength_append`: the lengths of two texts add up.
-/
namespace BundleLedger.Text

/-- The bytes of a text. -/
def utf8 (s : List Char) : List UInt8 := s.flatMap String.utf8EncodeChar

def byteLength (s : List Char) : Nat := s.foldr (fun c n => c.utf8Size + n) 0

/-- Stands for bytes that are no text. -/
def replacement : Char := '\ufffd'

def isContinuation (b : Nat) : Bool := 0x80 ≤ b && b ≤ 0xbf

/-- Whether `b` may follow the first byte `a` of a character of more than two bytes. -/
def isSecond (a b : Nat) : Bool :=
  if a = 0xe0 then 0xa0 ≤ b && b ≤ 0xbf
  else if a = 0xed then 0x80 ≤ b && b ≤ 0x9f
  else if a = 0xf0 then 0x90 ≤ b && b ≤ 0xbf
  else if a = 0xf4 then 0x80 ≤ b && b ≤ 0x8f
  else isContinuation b

/-- How many bytes a character takes that begins with `a`; zero if none does. -/
def widthOf (a : Nat) : Nat :=
  if a < 0x80 then 1
  else if 0xc2 ≤ a && a ≤ 0xdf then 2
  else if 0xe0 ≤ a && a ≤ 0xef then 3
  else if 0xf0 ≤ a && a ≤ 0xf4 then 4
  else 0

/-- The character at the head of some bytes, or `none` for a mistake, and how many further bytes
belong to it. -/
def headChar (a : Nat) (rest : List Nat) : Option Char × Nat :=
  match widthOf a, rest with
  | 1, _ => (some (Char.ofNat a), 0)
  | 2, b :: _ =>
    if isContinuation b then (some (Char.ofNat ((a - 0xc0) * 0x40 + (b - 0x80))), 1) else (none, 0)
  | 3, [b] => if isSecond a b then (none, 1) else (none, 0)
  | 3, b :: c :: _ =>
    if !isSecond a b then (none, 0)
    else if isContinuation c then
      (some (Char.ofNat ((a - 0xe0) * 0x1000 + (b - 0x80) * 0x40 + (c - 0x80))), 2)
    else (none, 1)
  | 4, [b] => if isSecond a b then (none, 1) else (none, 0)
  | 4, [b, c] =>
    if !isSecond a b then (none, 0) else if isContinuation c then (none, 2) else (none, 1)
  | 4, b :: c :: d :: _ =>
    if !isSecond a b then (none, 0)
    else if !isContinuation c then (none, 1)
    else if isContinuation d then
      (some (Char.ofNat ((a - 0xf0) * 0x40000 + (b - 0x80) * 0x1000 + (c - 0x80) * 0x40 +
        (d - 0x80))), 3)
    else (none, 2)
  | _, _ => (none, 0)

/-- The characters of some bytes in order, `none` for each mistake. -/
def chars : Nat → List Nat → List (Option Char)
  | 0, _ => []
  | _, [] => []
  | fuel + 1, a :: rest =>
    let (c, more) := headChar a rest
    c :: chars fuel (rest.drop more)

/-- The characters of some bytes, mistakes included. -/
def decodeAll (bytes : List UInt8) : List (Option Char) :=
  chars bytes.length (bytes.map UInt8.toNat)

/-- The text of some bytes. -/
def decode? (bytes : List UInt8) : Option (List Char) := (decodeAll bytes).mapM id

/-- The text of some bytes, with a replacement for each mistake. -/
def lossy (bytes : List UInt8) : List Char := (decodeAll bytes).map (·.getD replacement)

theorem byteLength_append (a b : List Char) : byteLength (a ++ b) = byteLength a + byteLength b := by
  induction a with
  | nil => simp [byteLength]
  | cons c a ih =>
    simp only [byteLength, List.cons_append, List.foldr_cons] at ih ⊢
    omega

namespace Octets

def ofBytes (bytes : List UInt8) : List Char := bytes.map fun b => Char.ofNat b.toNat

def bytes (s : List Char) : List UInt8 := s.map fun c => UInt8.ofNat c.toNat

end Octets

end BundleLedger.Text
