import BundleLedger.Text.Search

/-!
# Words of shell scripts

A script is cut into words, operators and line ends. A word is made of parts: text, references to
variables, and commands whose output is put in. What stands between quotes is kept together.
-/
namespace BundleLedger.Shell

/-- A part of a word, and whether it stood between quotes. -/
inductive Part where
  | text (quoted : Bool) (s : List Char)
  | variable (quoted : Bool) (name : List Char)
  /-- The output of a script. -/
  | output (quoted : Bool) (script : List Char)
  deriving DecidableEq, Repr

abbrev Word := List Part

/-- What a script is cut into. -/
inductive Token where
  /-- A word, and the line on which it starts. -/
  | word (w : Word) (line : Nat)
  | operator (symbol : String)
  /-- The number of a channel in front of a redirection. -/
  | channel (n : Nat)
  | lineEnd
  /-- A text that is to be read, from the lines after the command. -/
  | document (w : Word)
  deriving DecidableEq, Repr

def isNameStart (c : Char) : Bool := c.isAlpha || c = '_'

def isNamePart (c : Char) : Bool := c.isAlphanum || c = '_'

/-- The variables with a name of one symbol. -/
def isSpecial (c : Char) : Bool := "?#$@*!-0123456789".toList.contains c

def endsWord (c : Char) : Bool := " \t\n;&|<>()".toList.contains c

/-- What stands before the parenthesis that closes `depth` open ones, and what follows it. -/
def closing? : Nat → Nat → List Char → Option (List Char × List Char)
  | 0, _, _ | _, _, [] => none
  | fuel + 1, depth, c :: s =>
    let keep (taken : List Char) (r : Option (List Char × List Char)) :=
      r.map fun (a, b) => (taken ++ a, b)
    if c = ')' then if depth = 1 then some ([], s) else keep [c] (closing? fuel (depth - 1) s)
    else if c = '(' then keep [c] (closing? fuel (depth + 1) s)
    else if c = '\'' then
      match Text.cut? '\'' s with
      | some (inside, rest) => keep (c :: inside ++ [c]) (closing? fuel depth rest)
      | none => none
    else if c = '\\' then
      match s with
      | d :: s => keep [c, d] (closing? fuel depth s)
      | [] => none
    else keep [c] (closing? fuel depth s)

/-- The part that a dollar sign starts, from after it, and what follows. -/
def dollar? (quoted : Bool) (s : List Char) : Option (Part × List Char) :=
  match s with
  | '(' :: s => (closing? s.length 1 s).map fun (script, rest) => (.output quoted script, rest)
  | '{' :: s =>
    match Text.cut? '}' s with
    | some (name, rest) =>
      if name ≠ [] ∧ (name.all isNamePart ∨ name.all isSpecial) then
        some (.variable quoted name, rest)
      else none
    | none => none
  | c :: s =>
    if isNameStart c then
      let name := (c :: s).takeWhile isNamePart
      some (.variable quoted name, (c :: s).drop name.length)
    else if isSpecial c then some (.variable quoted [c], s)
    else some (.text quoted ['$'], c :: s)
  | [] => some (.text quoted ['$'], [])

/-- The parts between double quotes up to the one that closes them, and what follows; without
`closed`, up to the end. -/
def quoted? (closed : Bool) : Nat → List Char → Option (Word × List Char)
  | 0, [] => if closed then none else some ([], [])
  | 0, _ => none
  | _ + 1, [] => if closed then none else some ([], [])
  | fuel + 1, c :: s =>
    let keep (part : Part) (rest : List Char) :=
      (quoted? closed fuel rest).map fun (w, after) => (part :: w, after)
    if c = '"' ∧ closed then some ([], s)
    else if c = '\\' then
      match s with
      | '\n' :: s => quoted? closed fuel s
      | d :: s =>
        if d = '$' ∨ d = '\\' ∨ d = '\x60' ∨ (d = '"' ∧ closed) then keep (.text true [d]) s
        else keep (.text true ['\\', d]) s
      | [] => keep (.text true ['\\']) []
    else if c = '$' then
      match dollar? true s with
      | some (part, rest) => keep part rest
      | none => none
    else if c = '\x60' then
      match Text.cut? '\x60' s with
      | some (script, rest) => keep (.output true script) rest
      | none => none
    else keep (.text true [c]) s

def word? : Nat → List Char → Option (Word × List Char)
  | _, [] => some ([], [])
  | 0, _ => none
  | fuel + 1, c :: s =>
    let keep (parts : Word) (rest : List Char) :=
      (word? fuel rest).map fun (w, after) => (parts ++ w, after)
    if endsWord c then some ([], c :: s)
    else if c = '\'' then
      match Text.cut? '\'' s with
      | some (inside, rest) => keep [.text true inside] rest
      | none => none
    else if c = '"' then
      match quoted? true s.length s with
      | some (w, rest) => keep (.text true [] :: w) rest
      | none => none
    else if c = '\\' then
      match s with
      | '\n' :: s => keep [] s
      | d :: s => keep [.text true [d]] s
      | [] => keep [.text true ['\\']] []
    else if c = '$' then
      match dollar? false s with
      | some (part, rest) => keep [part] rest
      | none => none
    else if c = '\x60' then
      match Text.cut? '\x60' s with
      | some (script, rest) => keep [.output false script] rest
      | none => none
    else keep [.text false [c]] s

/-- The operators, longer ones first. -/
def operators : List String :=
  ["<<-", "&&", "||", ";;", "<<", ">>", "<&", ">&", "<>", ">|", ";", "&", "|", "<", ">", "(", ")"]

/-- A word's text without its quotes. -/
def plainText (w : Word) : List Char :=
  w.flatMap fun
    | .text _ s => s
    | .variable _ name => '$' :: name
    | .output _ script => script

/-- Whether some part of a word stood between quotes. -/
def hasQuotes (w : Word) : Bool := w.any fun
  | .text q _ => q
  | .variable q _ => q
  | .output q _ => q

/-- The lines up to one that is `stop`, and what follows that; tabs in front of lines are dropped if
`untabbed`. -/
def lines? (untabbed : Bool) (stop : List Char) : Nat → List Char → Option (List Char × List Char)
  | 0, _ => none
  | fuel + 1, s =>
    let line := s.takeWhile (· != '\n')
    let shown := if untabbed then line.dropWhile (· == '\t') else line
    let rest := s.drop (line.length + 1)
    if shown = stop then some ([], rest)
    else if s.length ≤ line.length then none
    else (lines? untabbed stop fuel rest).map fun (a, b) => (shown ++ '\n' :: a, b)

/-- The document that a word in `s` announces: its tokens, and the script without it. -/
def document? (untabbed : Bool) (s : List Char) : Option (Token × List Char) := do
  let s := s.dropWhile fun c => c = ' ' || c = '\t'
  let (stop, s) ← word? s.length s
  let line := s.takeWhile (· != '\n')
  let below := s.drop (line.length + 1)
  let (body, rest) ← lines? untabbed (plainText stop) (below.length + 1) below
  let body ← if hasQuotes stop then some [Part.text true body]
    else (quoted? false body.length body).map (·.1)
  return (.document body, line ++ '\n' :: rest)

/-- The token at the head of line `line`, where no blank is, and what follows it. -/
def token? (line : Nat) (s : List Char) : Option (Token × List Char) :=
  match s with
  | [] => none
  | '\n' :: rest => some (.lineEnd, rest)
  | s =>
    match operators.find? fun o => o.toList.isPrefixOf s with
    | some o => some (.operator o, s.drop o.length)
    | none =>
      let digits := s.takeWhile Char.isDigit
      let rest := s.drop digits.length
      if digits ≠ [] ∧ (rest.head? = some '<' ∨ rest.head? = some '>') then
        some (.channel (digits.foldl (fun n c => n * 10 + (c.toNat - 48)) 0), rest)
      else (word? s.length s).map fun (w, rest) => (.word w line, rest)

/-- The tokens of a script; at most as many as the fuel says. `lines` is the number of its lines. -/
def tokensFrom (lines : Nat) : Nat → List Char → Option (List Token)
  | 0, _ => none
  | fuel + 1, s =>
    match s with
    | [] => some []
    | ' ' :: s => tokensFrom lines fuel s
    | '\t' :: s => tokensFrom lines fuel s
    | '\\' :: '\n' :: s => tokensFrom lines fuel s
    | '#' :: s => tokensFrom lines fuel (s.dropWhile (· != '\n'))
    | s =>
      match token? (lines - s.count '\n') s with
      | none => none
      | some (.operator o, rest) =>
        if o = "<<" ∨ o = "<<-" then
          match document? (o == "<<-") rest with
          | some (token, rest) => (tokensFrom lines fuel rest).map (token :: ·)
          | none => none
        else (tokensFrom lines fuel rest).map (.operator o :: ·)
      | some (token, rest) => (tokensFrom lines fuel rest).map (token :: ·)

def tokens? (script : List Char) : Option (List Token) :=
  tokensFrom (script.count '\n' + 1) (script.length + 2) script

end BundleLedger.Shell
