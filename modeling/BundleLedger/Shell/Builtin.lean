import BundleLedger.Shell.Machine

/-!
# Commands that the shell knows

Each takes its arguments and gives the status with which it ends.
-/
namespace BundleLedger.Shell.Builtin

/-! ## Writing -/

/-- The number of up to `limit` octal digits, and what follows them. -/
def octal (limit : Nat) (s : List Char) : Nat × List Char :=
  let digits := (s.takeWhile fun c => '0' ≤ c && c ≤ '7').take limit
  (digits.foldl (fun n c => n * 8 + (c.toNat - 48)) 0, s.drop digits.length)

/-- The character that a letter stands for after a backslash. -/
def escaped? : Char → Option Char
  | '\\' => some '\\'
  | 'a' => some '\x07'
  | 'b' => some '\x08'
  | 'f' => some '\x0c'
  | 'n' => some '\n'
  | 'r' => some '\r'
  | 't' => some '\t'
  | 'v' => some '\x0b'
  | _ => none

def escape (s : List Char) : List Char × List Char :=
  match s with
  | [] => (['\\'], [])
  | c :: rest =>
    if '0' ≤ c ∧ c ≤ '7' then
      let (n, rest) := octal 3 s
      ([Char.ofNat (n % 256)], rest)
    else match escaped? c with
      | some e => ([e], rest)
      | none => (['\\'], s)

/-- A text with its escapes replaced, and whether it goes on: an escaped `c` ends it. -/
def unescaped : Nat → List Char → List Char × Bool
  | _, [] => ([], true)
  | 0, s => (s, true)
  | fuel + 1, '\\' :: s =>
    if s.head? = some 'c' then ([], false)
    else
      let s := match s with
        | '0' :: d :: rest => if '0' ≤ d ∧ d ≤ '7' then d :: rest else s
        | _ => s
      let (out, rest) := escape s
      let (more, open?) := unescaped fuel rest
      (out ++ more, open?)
  | fuel + 1, c :: s =>
    let (more, open?) := unescaped fuel s
    (c :: more, open?)

def echoed (arguments : List (List Char)) : List Char :=
  let (lineEnd, arguments) := match arguments with
    | ['-', 'n'] :: rest => ([], rest)
    | arguments => (['\n'], arguments)
  let s := Text.join [' '] arguments
  let (out, open?) := unescaped s.length s
  out ++ (if open? then lineEnd else [])

/-- What a format writes, with the arguments that are left over. -/
def formatted : Nat → List Char → List (List Char) → List Char × List (List Char)
  | 0, s, arguments => (s, arguments)
  | _, [], arguments => ([], arguments)
  | fuel + 1, '\\' :: s, arguments =>
    let (out, rest) := escape s
    let (more, arguments) := formatted fuel rest arguments
    (out ++ more, arguments)
  | fuel + 1, '%' :: '%' :: s, arguments =>
    let (more, arguments) := formatted fuel s arguments
    ('%' :: more, arguments)
  | fuel + 1, '%' :: c :: s, arguments =>
    let argument := arguments.headD []
    let out := match c with
      | 'c' => argument.take 1
      | 'b' => (unescaped argument.length argument).1
      | 'd' | 'i' | 'u' => if argument = [] then ['0'] else argument
      | _ => argument
    let (more, arguments) := formatted fuel s arguments.tail
    (out ++ more, arguments)
  | fuel + 1, c :: s, arguments =>
    let (more, arguments) := formatted fuel s arguments
    (c :: more, arguments)

/-- What `printf` writes: the format once, and again while arguments are left and used up. -/
def printed : Nat → List Char → List (List Char) → List Char
  | 0, _, _ => []
  | fuel + 1, format, arguments =>
    let (out, rest) := formatted format.length format arguments
    if rest = [] ∨ rest.length = arguments.length then out else out ++ printed fuel format rest

/-! ## Tests -/

def number? (s : List Char) : Option Int :=
  match s with
  | '-' :: digits => (String.ofList digits).toNat?.map fun n => -(n : Int)
  | digits => (String.ofList digits).toNat?.map Int.ofNat

/-- Whether two numbers compare so; `none` for an operator that compares no numbers. -/
def compared? (operator : String) (a b : Int) : Option Bool :=
  match operator with
  | "-eq" => some (a == b)
  | "-ne" => some (a != b)
  | "-lt" => some (a < b)
  | "-le" => some (a ≤ b)
  | "-gt" => some (a > b)
  | "-ge" => some (a ≥ b)
  | _ => none

/-- The outcome of a test with one operand. -/
def unary? (m : Machine) (operator : String) (s : List Char) : Option Bool :=
  let path := Machine.pathOf s
  match operator with
  | "-n" => some (s != [])
  | "-z" => some (s == [])
  | "-e" | "-r" | "-w" => some (m.disk.exists? path)
  | "-d" => some (m.disk.isDirectory path.toList)
  | "-f" => some (m.disk.read path).toBool
  | "-s" => some ((m.contents path).toOption.any (· != []))
  | _ => none

/-- The outcome of a test with two operands. -/
def binary? (a : List Char) (operator : String) (b : List Char) : Option Bool :=
  match operator with
  | "=" => some (a == b)
  | "!=" => some (a != b)
  | operator => do compared? operator (← number? a) (← number? b)

def operand? (m : Machine) : List (List Char) → Option (Bool × List (List Char))
  | [] => none
  | [a] => some (a != [], [])
  | [a, b] => (unary? m (String.ofList a) b).map (·, [])
  | a :: b :: c :: rest =>
    match binary? a (String.ofList b) c with
    | some r => some (r, rest)
    | none =>
      match unary? m (String.ofList a) b with
      | some r => some (r, c :: rest)
      | none => some (a != [], b :: c :: rest)

/-- The outcome of a test up to an operator that binds weaker than `strength`: two for a negation,
one for a conjunction, zero for all. -/
def testFrom? (m : Machine) : Nat → Nat → List (List Char) → Option (Bool × List (List Char))
  | 0, _, _ => none
  | fuel + 1, 0, arguments =>
    match testFrom? m fuel 1 arguments with
    | some (r, ['-', 'o'] :: rest) => (testFrom? m fuel 0 rest).map fun (q, rest) => (r || q, rest)
    | r => r
  | fuel + 1, 1, arguments =>
    match testFrom? m fuel 2 arguments with
    | some (r, ['-', 'a'] :: rest) => (testFrom? m fuel 1 rest).map fun (q, rest) => (r && q, rest)
    | r => r
  | fuel + 1, strength, arguments =>
    match arguments with
    | ['!'] :: b :: rest =>
      if (binary? ['!'] (String.ofList b) (rest.headD [])).isSome ∧ rest ≠ [] then
        operand? m arguments
      else (testFrom? m fuel strength (b :: rest)).map fun (r, rest) => (!r, rest)
    | arguments => operand? m arguments

/-- The outcome of a test; `none` for one that makes no sense. -/
def tested? (m : Machine) (arguments : List (List Char)) : Option Bool :=
  match arguments with
  | [] => some false
  | arguments =>
    match testFrom? m (3 * arguments.length + 3) 0 arguments with
    | some (r, []) => some r
    | _ => none

/-! ## Signals -/

def signals : List (String × Nat) :=
  [("HUP", 1), ("INT", 2), ("QUIT", 3), ("ILL", 4), ("TRAP", 5), ("ABRT", 6), ("BUS", 7), ("FPE", 8),
    ("KILL", 9), ("USR1", 10), ("SEGV", 11), ("USR2", 12), ("PIPE", 13), ("ALRM", 14), ("TERM", 15)]

def signal? (s : List Char) : Option Nat :=
  let name := String.ofList s
  match name.toNat? with
  | some n => some n
  | none => signals.lookup (if "SIG".isPrefixOf name then String.ofList (s.drop 3) else name)

/-- The signal that `kill` sends to the script itself, if it does. -/
def sentSignal? : List (List Char) → Option Nat
  | [pid] => if pid = processId then some 15 else none
  | [['-', 's'], name, pid] => if pid = processId then signal? name else none
  | ['-' :: name, pid] => if pid = processId then signal? name else none
  | _ => none

/-! ## All of them -/

/-- A line about what went wrong. -/
def complaint (m : Machine) (s : String) : List Char :=
  m.name ++ [':', ' '] ++ Machine.digits m.line ++ [':', ' '] ++ s.toList ++ ['\n']

/-- What `cat` writes for a file, or what is left to read for a lone dash. -/
def catFile (channels : Channels) (m : Machine) (file : List Char) : Machine :=
  if file = ['-'] then { m.put channels.standard m.input with input := [] }
  else match m.contents (Machine.pathOf file) with
    | .ok s => m.put channels.standard s
    | .error e =>
      let reason := (e.message.splitOn " (os").headD ""
      (m.put channels.error
        ("cat: ".toList ++ file ++ ": ".toList ++ reason.toList ++ ['\n'])).ended 1

/-- Reads one line into variables; the last one takes what is left over. -/
def readLine (names : List (List Char)) (m : Machine) : Machine :=
  let line := m.input.takeWhile (· != '\n')
  let ended := line.length < m.input.length
  let m := { m with input := m.input.drop (line.length + 1) }
  let isBlank (c : Char) : Bool := c == ' ' || c == '\t'
  let rec fill : List (List Char) → List Char → Machine → Machine
    | [], _, m => m
    | [name], s, m => m.assign name (Text.dropTrailing isBlank (s.dropWhile isBlank))
    | name :: names, s, m =>
      let s := s.dropWhile isBlank
      let word := s.takeWhile (!isBlank ·)
      fill names (s.drop word.length) (m.assign name word)
  (fill names line m).ended (if ended then 0 else 1)

/-- The machine that ends with the status that is asked for, or with the last one. -/
def exiting (channels : Channels) (name : String) (arguments : List (List Char)) (m : Machine) :
    Machine :=
  match arguments with
  | [] => m
  | s :: _ =>
    match (String.ofList s).toNat? with
    | some n => m.ended (n % 256)
    | none =>
      (m.put channels.error
        (complaint m (name ++ ": Illegal number: " ++ Machine.pathOf s))).ended 2

/-- Runs the command of this name; `none` if there is none. -/
def run? (channels : Channels) (name : String) (arguments : List (List Char)) (m : Machine) :
    Option (Flow × Machine) :=
  let test (arguments : List (List Char)) : Flow × Machine :=
    match tested? m arguments with
    | some r => (.next, m.ended (if r then 0 else 1))
    | none => (.next, (m.put channels.error (complaint m (name ++ ": unexpected operator"))).ended 2)
  match name with
  | ":" | "true" | "wait" | "sleep" | "trap" => some (.next, m.ended 0)
  | "false" => some (.next, m.ended 1)
  | "echo" => some (.next, (m.put channels.standard (echoed arguments)).ended 0)
  | "printf" =>
    match arguments with
    | format :: rest =>
      some (.next, (m.put channels.standard (printed (rest.length + 1) format rest)).ended 0)
    | [] => some (.next, (m.put channels.error (complaint m "printf: usage: printf format")).ended 2)
  | "cat" =>
    let files := if arguments.isEmpty then [['-']] else arguments
    some (.next, files.foldl (catFile channels) (m.ended 0))
  | "exit" | "return" => some (.exit, exiting channels name arguments m)
  | "test" => some (test arguments)
  | "[" =>
    if arguments.getLast? = some [']'] then some (test arguments.dropLast)
    else some (.next, (m.put channels.error (complaint m "[: missing ]")).ended 2)
  | "shift" =>
    let n := match arguments with
      | [] => 1
      | s :: _ => ((String.ofList s).toNat?).getD 1
    if m.arguments.length < n then
      some (.exit, (m.put channels.error (complaint m "shift: can't shift that many")).ended 2)
    else some (.next, { m.ended 0 with arguments := m.arguments.drop n })
  | "set" =>
    let strict := arguments.any fun a => a.head? == some '-' && a.contains 'e'
    some (.next, { m.ended 0 with strict := m.strict || strict })
  | "export" | "readonly" | "local" =>
    some (.next, (arguments.foldl (fun m a =>
      match Text.cut? '=' a with
      | some (name, value) => m.assign name value
      | none => m) m).ended 0)
  | "unset" =>
    some (.next, { m.ended 0 with bindings := m.bindings.filter (!arguments.contains ·.1) })
  | "read" => some (.next, readLine (arguments.filter (·.head? != some '-')) m)
  | "kill" =>
    match sentSignal? arguments with
    | some 0 => some (.next, m.ended 0)
    | some n => some (.killed n, m)
    | none => some (.next, (m.put channels.error (complaint m "kill: No such process")).ended 1)
  | _ => none

end BundleLedger.Shell.Builtin
