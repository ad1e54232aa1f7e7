/-!
# Patterns of shell scripts

A pattern matches whole texts: `*` stands for any text, `?` for one character, and brackets for one
of the characters in them. A quoted character stands for itself.
-/
namespace BundleLedger.Shell

/-- How a character of an expanded word came there. -/
inductive Mark where
  /-- It stood in the script. -/
  | plain
  /-- It comes from a variable or an output. -/
  | expanded
  /-- It was quoted. -/
  | quoted
  deriving DecidableEq, Repr

/-- An expanded word. -/
abbrev Marked := List (Char × Mark)

namespace Pattern

def isSymbol (symbol : Char) (c : Char × Mark) : Bool := c.1 == symbol && c.2 != .quoted

/-- Whether `c` is one of the characters between brackets. -/
def inSet (c : Char) : Marked → Bool
  | a :: m :: b :: rest =>
    if isSymbol '-' m then (a.1 ≤ c && c ≤ b.1) || inSet c rest
    else a.1 == c || inSet c (m :: b :: rest)
  | a :: rest => a.1 == c || inSet c rest
  | [] => false

/-- The characters between brackets, from after the opening one, whether they are excluded, and what
follows. -/
def bracket? (s : Marked) : Option (Bool × Marked × Marked) :=
  let (excluded, s) := match s with
    | c :: rest => if isSymbol '!' c then (true, rest) else (false, s)
    | [] => (false, s)
  match s with
  | [] => none
  | first :: rest =>
    let inside := rest.takeWhile fun c => !isSymbol ']' c
    match rest.drop inside.length with
    | [] => none
    | _ :: after => some (excluded, first :: inside, after)

/-- Whether a pattern matches; at most as many steps as the fuel says. -/
def matchesFrom : Nat → Marked → List Char → Bool
  | 0, _, _ => false
  | _ + 1, [], s => s.isEmpty
  | fuel + 1, p :: ps, s =>
    if isSymbol '*' p then
      matchesFrom fuel ps s ||
      match s with
      | [] => false
      | _ :: rest => matchesFrom fuel (p :: ps) rest
    else match s with
      | [] => false
      | c :: rest =>
        if isSymbol '?' p then matchesFrom fuel ps rest
        else if isSymbol '[' p then
          match bracket? ps with
          | some (excluded, inside, after) =>
            (inSet c inside != excluded) && matchesFrom fuel after rest
          | none => c == '[' && matchesFrom fuel ps rest
        else c == p.1 && matchesFrom fuel ps rest

def isMatch (pattern : Marked) (s : List Char) : Bool :=
  matchesFrom (pattern.length + s.length + 1) pattern s

end Pattern

end BundleLedger.Shell
