import BundleLedger.Text.Search

/-!
# File name patterns

A pattern for one step of a path: `?` stands for one character, `*` for any text, brackets for one
of the characters in them, or for one that is not in them after a `!`. A step that is `**` stands
for any number of directories.
-/
namespace BundleLedger.Discovery

/-- A part of a pattern. -/
inductive Token where
  | char (c : Char)
  | any
  | sequence
  /-- Any number of directories. -/
  | directories
  /-- A character within some ranges, or within none of them. -/
  | within (excluded : Bool) (ranges : List (Char × Char))
  deriving DecidableEq, Repr

abbrev Pattern := List Token

namespace Pattern

def ranges : List Char → List (Char × Char)
  | a :: '-' :: b :: s => (a, b) :: ranges s
  | a :: s => (a, a) :: ranges s
  | [] => []

/-- What stands between brackets, from after the opening one, and what follows the closing one. The
first character is never the closing one. -/
def bracketed? : List Char → Option (List Char × List Char)
  | [] => none
  | first :: s => (Text.cut? ']' s).map fun (inside, rest) => (first :: inside, rest)

def bracket? (s : List Char) : Option (Token × List Char) :=
  match s with
  | '!' :: s => (bracketed? s).map fun (inside, rest) => (.within true (ranges inside), rest)
  | s => (bracketed? s).map fun (inside, rest) => (.within false (ranges inside), rest)

/-- The tokens of a pattern; `none` if it is malformed. `atStart` says that nothing stands between
here and the last separator. At most as many tokens as the fuel says. -/
def parseFrom (atStart : Bool) : Nat → List Char → Option Pattern
  | _, [] => some []
  | 0, _ => none
  | fuel + 1, c :: s =>
    if c = '?' then (parseFrom false fuel s).map (.any :: ·)
    else if c = '*' then
      let stars := 1 + (s.takeWhile (· == '*')).length
      let rest := s.drop (stars - 1)
      if stars = 1 then (parseFrom false fuel rest).map (.sequence :: ·)
      else if stars ≠ 2 ∨ !atStart then none
      else match rest with
        | [] => some [.directories]
        | '/' :: rest => (parseFrom true fuel rest).map (.directories :: ·)
        | _ => none
    else if c = '[' then
      match bracket? s with
      | some (token, rest) => (parseFrom false fuel rest).map (token :: ·)
      | none => none
    else (parseFrom (c == '/') fuel s).map (.char c :: ·)

/-- The tokens of a pattern; `none` if it is malformed. -/
def parse? (s : List Char) : Option Pattern := parseFrom true s.length s

/-- Whether a step stands for any number of directories. -/
def isRecursive (p : Pattern) : Bool := p.contains .directories

/-- The text of a pattern without special characters. -/
def literal? (p : Pattern) : Option (List Char) := p.mapM fun
  | .char c => some c
  | _ => none

def isMatch : Pattern → List Char → Bool
  | [], s => s.isEmpty
  | .sequence :: p, s => anySuffix (isMatch p) s
  | .directories :: p, s => anySuffix (isMatch p) s
  | .char a :: p, c :: s => a == c && isMatch p s
  | .any :: p, _ :: s => isMatch p s
  | .within excluded ranges :: p, c :: s =>
    (ranges.any (fun (a, b) => a ≤ c && c ≤ b) != excluded) && isMatch p s
  | _ :: _, [] => false
where
  /-- Whether what is left after some characters passes the test. -/
  anySuffix (test : List Char → Bool) : List Char → Bool
    | [] => test []
    | c :: s => test (c :: s) || anySuffix test s

end Pattern

end BundleLedger.Discovery
