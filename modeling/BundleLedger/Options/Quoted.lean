import BundleLedger.Json.Escape

/-!
# Strings of options files

A string stands between double quotes, where a backslash starts an escape, or between single quotes,
where nothing is escaped. Three quotes in place of one let it run over several lines: a line end
right after the opening quotes is dropped, a backslash at the end of a line joins it to the next text,
and up to two quotes may stand before the closing three.
-/
namespace BundleLedger.Options.Quoted

open BundleLedger.Json (hexValue?)

/-- Whether a character may stand as it is in a string or a comment. -/
def isPlain (c : Char) : Bool := c = '\t' || (' ' ≤ c && c ≠ '\x7f')

def isBlank (c : Char) : Bool := c = ' ' || c = '\t'

def lineEnd? : List Char → Option (List Char)
  | '\n' :: s => some s
  | '\r' :: '\n' :: s => some s
  | _ => none

/-- The character whose code is written by the next `n` hexadecimal digits, and what follows. -/
def scalar? (n : Nat) (s : List Char) : Option (Char × List Char) :=
  match (s.take n).mapM hexValue? with
  | none => none
  | some digits =>
    let code := digits.foldl (fun code d => code * 16 + d) 0
    if digits.length = n ∧ code.isValidChar then some (Char.ofNat code, s.drop n) else none

/-- The character that an escape stands for, from after its backslash, and what follows. -/
def escape? : List Char → Option (Char × List Char)
  | 'b' :: s => some ('\x08', s)
  | 't' :: s => some ('\t', s)
  | 'n' :: s => some ('\n', s)
  | 'f' :: s => some ('\x0c', s)
  | 'r' :: s => some ('\r', s)
  | 'e' :: s => some ('\x1b', s)
  | '"' :: s => some ('"', s)
  | '\\' :: s => some ('\\', s)
  | 'x' :: s => scalar? 2 s
  | 'u' :: s => scalar? 4 s
  | 'U' :: s => scalar? 8 s
  | _ => none

/-- A text on one line up to the quote that closes it, and what follows. Escapes are read in double
quotes only. At most as many steps as the fuel says. -/
def line? (quote : Char) : Nat → List Char → Option (List Char × List Char)
  | 0, _ | _, [] => none
  | fuel + 1, c :: s =>
    if c = quote then some ([], s)
    else if c = '\\' ∧ quote = '"' then
      match escape? s with
      | some (e, rest) => (line? quote fuel rest).map fun (t, after) => (e :: t, after)
      | none => none
    else if isPlain c then (line? quote fuel s).map fun (t, after) => (c :: t, after)
    else none

/-- What follows the blanks and line ends after a backslash that ends a line. -/
def joined? (s : List Char) : Option (List Char) :=
  (lineEnd? (s.dropWhile isBlank)).map skip
where
  /-- Without leading blanks and line ends. -/
  skip : List Char → List Char
    | '\r' :: '\n' :: s => skip s
    | c :: s => if isBlank c || c = '\n' then skip s else c :: s
    | [] => []

/-- A text up to the three quotes that close it, and what follows. -/
def lines? (quote : Char) : Nat → List Char → Option (List Char × List Char)
  | 0, _ | _, [] => none
  | fuel + 1, c :: s =>
    if c = quote then
      let run := 1 + (s.takeWhile (· == quote)).length
      if 3 ≤ run then
        let spare := min (run - 3) 2
        some (List.replicate spare quote, (c :: s).drop (3 + spare))
      else (lines? quote fuel s).map fun (t, after) => (c :: t, after)
    else if c = '\\' ∧ quote = '"' then
      match joined? s with
      | some rest => lines? quote fuel rest
      | none =>
        match escape? s with
        | some (e, rest) => (lines? quote fuel rest).map fun (t, after) => (e :: t, after)
        | none => none
    else if isPlain c || c = '\n' || (c = '\r' && s.head? = some '\n') then
      (lines? quote fuel s).map fun (t, after) => (c :: t, after)
    else none

/-- The text of a string on one line that opens with `quote`, from after the quote. -/
def single? (quote : Char) (s : List Char) : Option (List Char × List Char) :=
  line? quote s.length s

/-- The text of a string, and what follows it. -/
def read? : List Char → Option (List Char × List Char)
  | [] => none
  | quote :: s =>
    if quote = '"' ∨ quote = '\'' then
      if [quote, quote].isPrefixOf s then
        let inside := s.drop 2
        lines? quote inside.length ((lineEnd? inside).getD inside)
      else single? quote s
    else none

end BundleLedger.Options.Quoted
