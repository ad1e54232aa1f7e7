/-!
# Quoted strings

How a text stands between quotes. Writing escapes the quote, the backslash and the control
characters; reading takes any escape, and joins the two halves of a surrogate pair.

Results:

* `decode_encode`: an escaped text reads back.
-/
namespace BundleLedger.Json

/-- The lower-case hexadecimal digit of a number below 16. -/
def hexDigit (n : Nat) : Char := Char.ofNat (if n < 10 then 48 + n else 87 + n)

/-- The value of a hexadecimal digit in either case. -/
def hexValue? (c : Char) : Option Nat :=
  if '0' ≤ c ∧ c ≤ '9' then some (c.toNat - 48)
  else if 'a' ≤ c ∧ c ≤ 'f' then some (c.toNat - 87)
  else if 'A' ≤ c ∧ c ≤ 'F' then some (c.toNat - 55)
  else none

/-- The letter that stands for `c` after a backslash. -/
def shortEscape? (c : Char) : Option Char :=
  if c = '"' then some '"'
  else if c = '\\' then some '\\'
  else if c = '\x08' then some 'b'
  else if c = '\x0c' then some 'f'
  else if c = '\n' then some 'n'
  else if c = '\r' then some 'r'
  else if c = '\t' then some 't'
  else none

def encodeChar (c : Char) : List Char :=
  match shortEscape? c with
  | some e => ['\\', e]
  | none =>
    if c.toNat < 32 then
      ['\\', 'u', '0', '0', hexDigit (c.toNat / 16), hexDigit (c.toNat % 16)]
    else [c]

/-- The text between the quotes. -/
def encode (s : List Char) : List Char := s.flatMap encodeChar

def quote (s : List Char) : List Char := '"' :: encode s ++ ['"']

/-- The number written by four hexadecimal digits. -/
def fourHex? (a b c d : Char) : Option Nat := do
  let a ← hexValue? a
  let b ← hexValue? b
  let c ← hexValue? c
  let d ← hexValue? d
  return ((a * 16 + b) * 16 + c) * 16 + d

def escaped? (e : Char) : Option Char :=
  if e = '"' then some '"'
  else if e = '\\' then some '\\'
  else if e = '/' then some '/'
  else if e = 'b' then some '\x08'
  else if e = 'f' then some '\x0c'
  else if e = 'n' then some '\n'
  else if e = 'r' then some '\r'
  else if e = 't' then some '\t'
  else none

/-- Whether `n` is the first half of a surrogate pair. -/
def isHighSurrogate (n : Nat) : Bool := 0xd800 ≤ n && n < 0xdc00

/-- Whether `n` is the second half of a surrogate pair. -/
def isLowSurrogate (n : Nat) : Bool := 0xdc00 ≤ n && n < 0xe000

def joinSurrogates (high low : Nat) : Char :=
  Char.ofNat (0x10000 + (high - 0xd800) * 0x400 + (low - 0xdc00))

/-- The four hexadecimal digits at the head and what follows them. -/
def unit? : List Char → Option (Nat × List Char)
  | a :: b :: c :: d :: rest => (fourHex? a b c d).map (·, rest)
  | _ => none

/-- The character whose code, after a backslash and a `u`, is at the head. The first half of a
surrogate pair must be followed by the second, and neither stands alone. -/
def decodeUnit (raw : List Char) : Option (Char × List Char) :=
  match unit? raw with
  | none => none
  | some (n, rest) =>
    if isHighSurrogate n then
      match rest with
      | '\\' :: 'u' :: rest =>
        match unit? rest with
        | some (m, rest) =>
          if isLowSurrogate m then some (joinSurrogates n m, rest) else none
        | none => none
      | _ => none
    else if isLowSurrogate n then none
    else some (Char.ofNat n, rest)

/-- The first character of the text that stands between quotes as `raw`, and the rest of `raw`. -/
def decodeHead : List Char → Option (Char × List Char)
  | [] => none
  | c :: raw =>
    if c = '\\' then
      match raw with
      | [] => none
      | e :: raw => if e = 'u' then decodeUnit raw else (escaped? e).map (·, raw)
    else some (c, raw)

/-- `decode`, for a text of at most as many characters. -/
def decodeUpTo : Nat → List Char → Option (List Char)
  | _, [] => some []
  | 0, _ :: _ => none
  | n + 1, c :: raw =>
    match decodeHead (c :: raw) with
    | some (d, rest) => (decodeUpTo n rest).map (d :: ·)
    | none => none

/-- The text that stands between quotes as `raw`. -/
def decode (raw : List Char) : Option (List Char) := decodeUpTo raw.length raw

/-! ## Reading what was written -/

theorem encodeChar_length (c : Char) : 1 ≤ (encodeChar c).length := by
  unfold encodeChar
  split
  · simp
  · split <;> simp

theorem decodeHead_short {c e : Char} (h : shortEscape? c = some e) (rest : List Char) :
    decodeHead ('\\' :: e :: rest) = some (c, rest) := by
  unfold shortEscape? at h
  repeat' split at h
  all_goals first
    | (cases h; subst_vars; simp [decodeHead, escaped?])
    | simp at h

theorem decodeUnit_control : ∀ n, n < 32 → ∀ rest,
    decodeUnit ('0' :: '0' :: hexDigit (n / 16) :: hexDigit (n % 16) :: rest) =
      some (Char.ofNat n, rest) := by
  intro n hn rest
  have key : ∀ n, n < 32 → fourHex? '0' '0' (hexDigit (n / 16)) (hexDigit (n % 16)) = some n := by
    decide
  simp only [decodeUnit, unit?, key n hn, Option.map_some]
  have h1 : isHighSurrogate n = false := by simp [isHighSurrogate]; omega
  have h2 : isLowSurrogate n = false := by simp [isLowSurrogate]; omega
  simp [h1, h2]

theorem decodeHead_encodeChar (c : Char) (rest : List Char) :
    decodeHead (encodeChar c ++ rest) = some (c, rest) := by
  unfold encodeChar
  split
  · rename_i e he
    exact decodeHead_short he rest
  · rename_i hs
    split
    · rename_i hc
      have := decodeUnit_control c.toNat hc rest
      simpa [decodeHead] using this
    · have hb : c ≠ '\\' := by
        intro h
        simp [shortEscape?, h] at hs
      simp [decodeHead, hb]

theorem decodeUpTo_encode (s : List Char) (n : Nat) (h : (encode s).length ≤ n) :
    decodeUpTo n (encode s) = some s := by
  induction s generalizing n with
  | nil => cases n <;> rfl
  | cons c s ih =>
    have hcons : encode (c :: s) = encodeChar c ++ encode s := by simp [encode]
    have hlen := encodeChar_length c
    rw [hcons] at h ⊢
    rw [List.length_append] at h
    cases hc : encodeChar c with
    | nil => rw [hc] at hlen; simp at hlen
    | cons d t =>
      have hd := decodeHead_encodeChar c (encode s)
      rw [hc, List.cons_append] at hd
      cases n with
      | zero => omega
      | succ n =>
        rw [hc] at h hlen
        simp only [List.length_cons] at h
        rw [List.cons_append, decodeUpTo, hd]
        simp [ih n (by omega)]

theorem decode_encode (s : List Char) : decode (encode s) = some s :=
  decodeUpTo_encode s _ (Nat.le_refl _)

end BundleLedger.Json
