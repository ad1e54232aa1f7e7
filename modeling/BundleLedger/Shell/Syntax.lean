import BundleLedger.Shell.Word

/-!
# Commands of shell scripts

How the tokens of a script make commands. What is nested in a command takes one more step of the
fuel, of which there is more than there are tokens.
-/
namespace BundleLedger.Shell

inductive Redirection where
  | input (channel : Nat) (file : Word)
  /-- A new file, or the end of an old one. -/
  | output (channel : Nat) (append : Bool) (file : Word)
  /-- Wherever another channel leads. -/
  | copy (channel : Nat) (other : Word)
  | document (channel : Nat) (body : Word)
  deriving DecidableEq, Repr

inductive Command where
  | nothing
  /-- A command on a line. -/
  | simple (line : Nat) (assignments : List (List Char × Word)) (words : List Word)
      (redirections : List Redirection)
  /-- Assignments and redirections without a command. -/
  | bare (line : Nat) (assignments : List (List Char × Word)) (redirections : List Redirection)
  | sequence (first second : Command)
  | both (first second : Command)
  | either (first second : Command)
  | negated (c : Command)
  | pipe (first second : Command)
  | branch (condition yes no : Command)
  | choice (subject : Word) (arms : List (List Word × Command))
  /-- Again and again while the condition has this outcome. -/
  | loop (outcome : Bool) (condition body : Command)
  | each (name : List Char) (words : List Word) (body : Command)
  /-- Commands together, in a shell of their own if `apart`. -/
  | group (apart : Bool) (body : Command) (redirections : List Redirection)

abbrev Reader (α : Type) := List Token → Option (α × List Token)

/-- The text of a word without quotes. -/
def keyword? : Token → Option String
  | .word w _ => if hasQuotes w then none else some (String.ofList (plainText w))
  | _ => none

def isKeyword (text : String) (ts : List Token) : Bool := ts.head?.bind keyword? == some text

def takeKeyword (text : String) : Reader Unit := fun ts =>
  if isKeyword text ts then some ((), ts.tail) else none

def takeOperator (text : String) : Reader Unit := fun ts =>
  if ts.head? = some (.operator text) then some ((), ts.tail) else none

def skipLines (ts : List Token) : List Token := ts.dropWhile (· == .lineEnd)

/-- The keywords that end a list of commands. -/
def closers : List String := ["then", "elif", "else", "fi", "do", "done", "esac", "\x7d"]

def endsList (ts : List Token) : Bool :=
  match ts with
  | [] => true
  | .operator o :: _ => o = ")" || o = ";;"
  | t :: _ => (keyword? t).any closers.contains

def redirection? : List Token → Option (Option Redirection × List Token)
  | .channel n :: .document body :: ts => some (some (.document n body), ts)
  | .document body :: ts => some (some (.document 0 body), ts)
  | .channel n :: .operator o :: ts => named (some n) o ts
  | .operator o :: ts =>
    if ["<", ">", ">>", ">|", "<&", ">&", "<>"].contains o then named none o ts
    else some (none, .operator o :: ts)
  | ts => some (none, ts)
where
  /-- The redirection of an operator and the word after it. -/
  named (n : Option Nat) (o : String) : List Token → Option (Option Redirection × List Token)
    | .word w _ :: ts =>
      let redirection := match o with
        | "<" | "<>" => Redirection.input (n.getD 0) w
        | ">>" => .output (n.getD 1) true w
        | "<&" => .copy (n.getD 0) w
        | ">&" => .copy (n.getD 1) w
        | _ => .output (n.getD 1) false w
      some (some redirection, ts)
    | _ => none

def assignment? (w : Word) : Option (List Char × Word) :=
  let lead := w.takeWhile fun
    | .text false s => s != ['=']
    | _ => false
  let name := plainText lead
  match w.drop lead.length with
  | .text false ['='] :: value =>
    if name.head?.any isNameStart && name.all isNamePart then some (name, value) else none
  | _ => none

/-- The assignments, words and redirections of a simple command on a line. -/
def simpleFrom (line : Nat) : Nat → List (List Char × Word) → List Word → List Redirection → Reader Command
  | 0, _, _, _, _ => none
  | fuel + 1, assignments, words, redirections, ts =>
    match redirection? ts with
    | none => none
    | some (some r, ts) => simpleFrom line fuel assignments words (redirections ++ [r]) ts
    | some (none, .word w _ :: ts) =>
      match words, assignment? w with
      | [], some a => simpleFrom line fuel (assignments ++ [a]) [] redirections ts
      | _, _ => simpleFrom line fuel assignments (words ++ [w]) redirections ts
    | some (none, ts) =>
      if !words.isEmpty then some (.simple line assignments words redirections, ts)
      else if assignments.isEmpty && redirections.isEmpty then none
      else some (.bare line assignments redirections, ts)

def redirectionsFrom : Nat → Reader (List Redirection)
  | 0, ts => some ([], ts)
  | fuel + 1, ts =>
    match redirection? ts with
    | none => none
    | some (none, ts) => some ([], ts)
    | some (some r, ts) => (redirectionsFrom fuel ts).map fun (rs, ts) => (r :: rs, ts)

def patternsFrom : Nat → Reader (List Word)
  | 0, _ => none
  | fuel + 1, .word w _ :: .operator o :: ts =>
    if o = ")" then some ([w], ts)
    else if o = "|" then (patternsFrom fuel ts).map fun (ws, ts) => (w :: ws, ts)
    else none
  | _ + 1, _ => none

def lineOf : Token → Nat
  | .word _ line => line
  | _ => 1

def wordsOf : List Token → List Word × List Token
  | .word w _ :: ts => let (ws, ts) := wordsOf ts; (w :: ws, ts)
  | ts => ([], ts)

mutual

/-- Commands one after the other, up to where a list ends. -/
def listFrom : Nat → Reader Command
  | 0, _ => none
  | fuel + 1, ts =>
    let ts := skipLines ts
    if endsList ts then some (.nothing, ts)
    else do
      let (first, ts) ← chainFrom fuel ts
      match ts with
      | .operator ";" :: rest | .operator "&" :: rest | .lineEnd :: rest =>
        let (second, rest) ← listFrom fuel rest
        return (.sequence first second, rest)
      | ts => if endsList ts then return (first, ts) else none

/-- Commands joined by `&&` and `||`, from the left. -/
def chainFrom : Nat → Reader Command
  | 0, _ => none
  | fuel + 1, ts => do
    let (first, ts) ← pipeFrom fuel ts
    linksFrom fuel first ts

/-- What is joined to a command by `&&` and `||`. -/
def linksFrom : Nat → Command → Reader Command
  | 0, _, _ => none
  | fuel + 1, first, ts =>
    match ts with
    | .operator "&&" :: rest => do
      let (second, rest) ← pipeFrom fuel (skipLines rest)
      linksFrom fuel (.both first second) rest
    | .operator "||" :: rest => do
      let (second, rest) ← pipeFrom fuel (skipLines rest)
      linksFrom fuel (.either first second) rest
    | ts => some (first, ts)

/-- Commands joined by `|`. -/
def pipeFrom : Nat → Reader Command
  | 0, _ => none
  | fuel + 1, ts =>
    if isKeyword "!" ts then do
      let (c, ts) ← pipeFrom fuel ts.tail
      return (.negated c, ts)
    else do
      let (first, ts) ← commandFrom fuel ts
      match ts with
      | .operator "|" :: rest =>
        let (second, rest) ← pipeFrom fuel (skipLines rest)
        return (.pipe first second, rest)
      | ts => return (first, ts)

/-- The rest of an `if`, from after the word. -/
def branchFrom : Nat → Reader Command
  | 0, _ => none
  | fuel + 1, ts => do
    let (condition, ts) ← listFrom fuel ts
    let ((), ts) ← takeKeyword "then" ts
    let (yes, ts) ← listFrom fuel ts
    if isKeyword "elif" ts then
      let (no, ts) ← branchFrom fuel ts.tail
      return (.branch condition yes no, ts)
    else if isKeyword "else" ts then
      let (no, ts) ← listFrom fuel ts.tail
      let ((), ts) ← takeKeyword "fi" ts
      return (.branch condition yes no, ts)
    else
      let ((), ts) ← takeKeyword "fi" ts
      return (.branch condition yes .nothing, ts)

def armsFrom : Nat → Reader (List (List Word × Command))
  | 0, _ => none
  | fuel + 1, ts =>
    let ts := skipLines ts
    if isKeyword "esac" ts then some ([], ts.tail)
    else do
      let ts := if ts.head? = some (.operator "(") then ts.tail else ts
      let (patterns, ts) ← patternsFrom fuel ts
      let (body, ts) ← listFrom fuel ts
      match ts with
      | .operator ";;" :: rest =>
        let (arms, rest) ← armsFrom fuel rest
        return ((patterns, body) :: arms, rest)
      | ts =>
        let ((), ts) ← takeKeyword "esac" ts
        return ([(patterns, body)], ts)

def bodyFrom : Nat → Reader Command
  | 0, _ => none
  | fuel + 1, ts => do
    let ((), ts) ← takeKeyword "do" ts
    let (body, ts) ← listFrom fuel ts
    let ((), ts) ← takeKeyword "done" ts
    return (body, ts)

def commandFrom : Nat → Reader Command
  | 0, _ => none
  | fuel + 1, ts =>
    match ts with
    | .operator "(" :: rest => do
      let (body, rest) ← listFrom fuel rest
      let ((), rest) ← takeOperator ")" rest
      let (redirections, rest) ← redirectionsFrom fuel rest
      return (.group true body redirections, rest)
    | t :: rest =>
      match keyword? t with
      | some "\x7b" => do
        let (body, rest) ← listFrom fuel rest
        let ((), rest) ← takeKeyword "\x7d" rest
        let (redirections, rest) ← redirectionsFrom fuel rest
        return (.group false body redirections, rest)
      | some "if" => do
        let (c, rest) ← branchFrom fuel rest
        let (redirections, rest) ← redirectionsFrom fuel rest
        return (.group false c redirections, rest)
      | some "case" => do
        let .word subject _ :: rest := rest | none
        let ((), rest) ← takeKeyword "in" (skipLines rest)
        let (arms, rest) ← armsFrom fuel rest
        let (redirections, rest) ← redirectionsFrom fuel rest
        return (.group false (.choice subject arms) redirections, rest)
      | some "while" => loopFrom fuel true rest
      | some "until" => loopFrom fuel false rest
      | some "for" => do
        let .word name _ :: rest := rest | none
        let ((), rest) ← takeKeyword "in" rest
        let (words, rest) := wordsOf rest
        let rest := skipLines (if rest.head? = some (.operator ";") then rest.tail else rest)
        let (body, rest) ← bodyFrom fuel rest
        let (redirections, rest) ← redirectionsFrom fuel rest
        return (.group false (.each (plainText name) words body) redirections, rest)
      | _ => simpleFrom (lineOf t) (rest.length + 2) [] [] [] (t :: rest)
    | [] => none

/-- The rest of a `while` or `until`, from after the word. -/
def loopFrom : Nat → Bool → Reader Command
  | 0, _, _ => none
  | fuel + 1, outcome, ts => do
    let (condition, ts) ← listFrom fuel ts
    let (body, ts) ← bodyFrom fuel ts
    let (redirections, ts) ← redirectionsFrom fuel ts
    return (.group false (.loop outcome condition body) redirections, ts)

end

/-- The command that a script is. -/
def parse? (script : List Char) : Option Command := do
  let tokens ← tokens? script
  match ← listFrom (8 * tokens.length + 8) tokens with
  | (c, []) => some c
  | _ => none

end BundleLedger.Shell
