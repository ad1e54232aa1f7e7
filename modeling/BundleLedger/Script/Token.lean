import BundleLedger.Script.Literal
import BundleLedger.Text.Utf8

/-!
# Tokens

A script is read token by token. Whether a `/` begins a regular expression, and whether a `}` goes
on with a template, depends on what came before; the parser says so by asking for `regex?` or
`templatePart?` at that point.
-/
namespace BundleLedger.Script

open BundleLedger.Decimal

inductive Token where
  | ending
  /-- A name or a keyword; `escaped` if it is written with an escape. -/
  | name (text : String) (escaped : Bool)
  | privateName (text : String)
  | punctuator (text : String)
  /-- A number; without a value beyond the greatest double. -/
  | number (value : Option Double)
  | bigint
  | string (value : String)
  /-- A part of a template, without a value if an escape in it has none, and whether it is the
  last one. -/
  | template (value : Option String) (last : Bool)
  | regex
  deriving DecidableEq, Repr

/-- A point in a script: what follows, and how many bytes stand before it. -/
structure Point where
  rest : List Char
  offset : Nat
  deriving Repr

/-- The point after `text`, which stands at `p`, where `rest` follows. -/
def Point.after (p : Point) (text rest : List Char) : Point := ⟨rest, p.offset + Text.byteLength text⟩

/-! ## Between tokens -/

/-- Where blanks and comments are looked for: in code, in a comment up to the end of the line, or
in a comment up to its closing mark. -/
inductive Skipping where
  | code
  | line
  | block
  deriving DecidableEq, Repr

/-- The next point where a token begins, and whether a line ended before it; `none` if a comment is
not closed. -/
def skip : Skipping → Bool → Nat → List Char → Option (Point × Bool)
  | .block, _, _, [] => none
  | .code, newline, n, [] => some (⟨[], n⟩, newline)
  | .line, newline, n, [] => some (⟨[], n⟩, newline)
  | .code, newline, n, '/' :: '/' :: s => skip .line newline (n + 2) s
  | .code, newline, n, '/' :: '*' :: s => skip .block newline (n + 2) s
  | .code, newline, n, c :: s =>
    if isLineEnd c then skip .code true (n + c.utf8Size) s
    else if isBlank c then skip .code newline (n + c.utf8Size) s
    else some (⟨c :: s, n⟩, newline)
  | .line, newline, n, c :: s =>
    if isLineEnd c then skip .code true (n + c.utf8Size) s
    else skip .line newline (n + c.utf8Size) s
  | .block, newline, n, '*' :: '/' :: s => skip .code newline (n + 2) s
  | .block, newline, n, c :: s => skip .block (newline || isLineEnd c) (n + c.utf8Size) s

/-! ## Spans -/

/-- The text of a name, escapes included, and what follows. `inBraces` says that an escape with
braces is open. -/
def spanName : Bool → List Char → List Char × List Char
  | _, [] => ([], [])
  | true, c :: s =>
    let (raw, rest) := spanName (c != '}') s
    (c :: raw, rest)
  | false, '\\' :: 'u' :: '{' :: s =>
    let (raw, rest) := spanName true s
    ('\\' :: 'u' :: '{' :: raw, rest)
  | false, '\\' :: s =>
    let (raw, rest) := spanName false s
    ('\\' :: raw, rest)
  | false, c :: s =>
    if Text.isIdentifierPart c then
      let (raw, rest) := spanName false s
      (c :: raw, rest)
    else ([], c :: s)

/-- The text up to an unescaped `quote` on the same line, and what follows that quote. -/
def spanString (quote : Char) : List Char → Option (List Char × List Char)
  | [] => none
  | '\\' :: '\r' :: '\n' :: s => (spanString quote s).map fun (raw, rest) => ('\\' :: '\r' :: '\n' :: raw, rest)
  | '\\' :: c :: s => (spanString quote s).map fun (raw, rest) => ('\\' :: c :: raw, rest)
  | c :: s =>
    if c = quote then some ([], s)
    else if c = '\n' ∨ c = '\r' then none
    else (spanString quote s).map fun (raw, rest) => (c :: raw, rest)

/-- The text of a template part, whether it is the last one, and what follows its closing mark. -/
def spanTemplate : List Char → Option (List Char × Bool × List Char)
  | [] => none
  | '\\' :: c :: s => (spanTemplate s).map fun (raw, last, rest) => ('\\' :: c :: raw, last, rest)
  | '$' :: '{' :: s => some ([], false, s)
  | c :: s =>
    if c = '\x60' then some ([], true, s)
    else (spanTemplate s).map fun (raw, last, rest) => (c :: raw, last, rest)

/-- The body of a regular expression, and what follows its closing mark. `inClass` says that a
character class is open. -/
def spanRegex : Bool → List Char → Option (List Char × List Char)
  | _, [] => none
  | inClass, '\\' :: c :: s =>
    if isLineEnd c then none
    else (spanRegex inClass s).map fun (raw, rest) => ('\\' :: c :: raw, rest)
  | inClass, c :: s =>
    if isLineEnd c then none
    else if c = '/' ∧ !inClass then some ([], s)
    else
      let inClass := if c = '[' then true else if c = ']' then false else inClass
      (spanRegex inClass s).map fun (raw, rest) => (c :: raw, rest)

/-! ## Numbers -/

/-- The exponent of a number and what follows; no exponent is fine, a broken one is not. -/
def exponent? (s : List Char) : Option (Int × List Char) :=
  match s with
  | c :: s' =>
    if c = 'e' ∨ c = 'E' then
      let (negative, s') := match s' with
        | '+' :: s => (false, s)
        | '-' :: s => (true, s)
        | s => (false, s)
      (separated? Char.isDigit s').map fun (digits, rest) =>
        let n : Int := decimalNumber digits
        (if negative then -n else n, rest)
    else some (0, c :: s')
  | [] => some (0, [])

def fractionDigits? (s : List Char) : Option (List Char × List Char) :=
  if s.head?.any Char.isDigit then separated? Char.isDigit s else some ([], s)

/-- A number from its whole digits and what follows them. -/
def decimal? (whole s : List Char) : Option (Token × List Char) := do
  let (fraction, s) ← match s with
    | '.' :: s => fractionDigits? s
    | s => some ([], s)
  let (exponent, rest) ← exponent? s
  return (.number (Double.ofDecimal false (decimalNumber (whole ++ fraction))
    (exponent - fraction.length)), rest)

/-- A number that begins with a zero and further digits: octal, or decimal if a digit is above
seven. -/
def legacyNumber? (s : List Char) : Option (Token × List Char) :=
  let digits := s.takeWhile Char.isDigit
  let rest := s.dropWhile Char.isDigit
  if digits.all (· ≤ '7') then some (.number (radixValue 3 digits.tail), rest)
  else decimal? digits rest

def radixNumber? (bits : Nat) (isDigit : Char → Bool) (s : List Char) :
    Option (Token × List Char) := do
  let (digits, rest) ← separated? isDigit s
  match rest with
  | 'n' :: rest => return (.bigint, rest)
  | rest => return (.number (radixValue bits digits), rest)

def anyNumber? (s : List Char) : Option (Token × List Char) :=
  match s with
  | '0' :: c :: rest =>
    if c = 'x' ∨ c = 'X' then radixNumber? 4 (fun c => (Json.hexValue? c).isSome) rest
    else if c = 'o' ∨ c = 'O' then radixNumber? 3 (fun c => (octalValue? c).isSome) rest
    else if c = 'b' ∨ c = 'B' then radixNumber? 1 (fun c => c == '0' || c == '1') rest
    else if c.isDigit then legacyNumber? s
    else if c = '_' then none
    else if c = 'n' then some (.bigint, rest)
    else decimal? ['0'] (c :: rest)
  | '.' :: _ => decimal? [] s
  | s => do
    let (whole, rest) ← separated? Char.isDigit s
    match rest with
    | 'n' :: rest => return (.bigint, rest)
    | rest => decimal? whole rest

/-- A number; no name and no digit may follow at once. -/
def number? (s : List Char) : Option (Token × List Char) :=
  match anyNumber? s with
  | some (token, rest) =>
    if rest.head?.any fun c => Text.isIdentifierStart c || c.isDigit || c == '\\' then none
    else some (token, rest)
  | none => none

/-! ## Tokens -/

def punctuators : List String :=
  [">>>=", "...", "===", "!==", "**=", "<<=", ">>=", ">>>", "&&=", "||=", "??=",
    "=>", "==", "!=", "<=", ">=", "&&", "||", "??", "++", "--", "+=", "-=", "*=", "/=", "%=", "&=",
    "|=", "^=", "<<", ">>", "**", "\x7b", "\x7d", "(", ")", "[", "]", ";", ",", "<", ">", "+", "-",
    "*", "/", "%", "&", "|", "^", "!", "~", "?", ":", "=", ".", "@"]

def punctuatorChars : List (List Char × String) := punctuators.map fun p => (p.toList, p)

/-- The punctuator at the head. A `?.` before a digit is a `?`. -/
def punctuator? (s : List Char) : Option (String × List Char) :=
  match s with
  | '?' :: '.' :: c :: rest => if c.isDigit then some ("?", '.' :: c :: rest) else some ("?.", c :: rest)
  | ['?', '.'] => some ("?.", [])
  | s => punctuatorChars.findSome? fun (chars, p) => (chars.isPrefixOf? s).map (p, ·)

def templatePart? (p : Point) : Option (Token × Point) :=
  (spanTemplate p.rest).map fun (raw, last, rest) =>
    (.template (templateValue? raw) last,
      ⟨rest, p.offset + Text.byteLength raw + (if last then 1 else 2)⟩)

def regexFlags : List Char := ['d', 'g', 'i', 'm', 's', 'u', 'v', 'y']

/-- The regular expression at the head, from before its opening mark. Each flag stands once, and two
of them do not go together. -/
def regex? (p : Point) : Option Point :=
  match p.rest with
  | '/' :: s =>
    match spanRegex false s with
    | none => none
    | some (body, rest) =>
      let flags := rest.takeWhile fun c => Text.isIdentifierPart c || c == '\\'
      let ok := flags.all regexFlags.contains && flags.eraseDups.length == flags.length &&
        !(flags.contains 'u' && flags.contains 'v')
      if ok then
        some ⟨rest.drop flags.length, p.offset + 2 + Text.byteLength body + flags.length⟩
      else none
  | _ => none

def token? (p : Point) : Option (Token × Point) :=
  match p.rest with
  | [] => some (.ending, p)
  | c :: s =>
    if c = '"' ∨ c = '\'' then
      match spanString c s with
      | some (raw, rest) =>
        (stringValue? raw).map fun value =>
          (.string value, ⟨rest, p.offset + Text.byteLength raw + 2⟩)
      | none => none
    else if c = '\x60' then templatePart? ⟨s, p.offset + 1⟩
    else if c.isDigit ∨ (c = '.' ∧ s.head?.any Char.isDigit) then
      (number? (c :: s)).map fun (token, rest) =>
        (token, ⟨rest, p.offset + ((c :: s).length - rest.length)⟩)
    else if c = '#' then
      let (raw, rest) := spanName false s
      (nameValue? raw).map fun name => (.privateName name, p.after ('#' :: raw) rest)
    else if c = '\\' ∨ Text.isIdentifierStart c then
      let (raw, rest) := spanName false (c :: s)
      (nameValue? raw).map fun name => (.name name (raw.contains '\\'), p.after raw rest)
    else
      (punctuator? (c :: s)).map fun (text, rest) => (.punctuator text, ⟨rest, p.offset + text.length⟩)

end BundleLedger.Script
