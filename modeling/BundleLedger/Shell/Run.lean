import BundleLedger.Shell.Builtin
import BundleLedger.Shell.Pattern
import BundleLedger.Shell.Syntax

/-!
# Running shell scripts

How commands change what a script works on. Words are expanded first: variables and outputs are put
in, and what they hold is cut at blanks unless it was quoted. What is nested, and each turn of a
loop, takes a step of the fuel; a script that runs out of it ends.
-/
namespace BundleLedger.Shell

/-! ## Fields -/

def isSeparator (c : Char × Mark) : Bool :=
  c.2 == .expanded && (c.1 == ' ' || c.1 == '\t' || c.1 == '\n')

/-- The runs between separators. -/
def fieldsFrom : List Char → Marked → List (List Char)
  | field, [] => if field.isEmpty then [] else [field.reverse]
  | field, c :: s =>
    if isSeparator c then
      if field.isEmpty then fieldsFrom [] s else field.reverse :: fieldsFrom [] s
    else fieldsFrom (c.1 :: field) s

/-- The fields that a word makes; a quoted word makes at least one. -/
def fieldsOf (w : Word) (s : Marked) : List (List Char) :=
  match fieldsFrom [] s with
  | [] => if hasQuotes w then [[]] else []
  | fields => fields

/-- A text all of whose characters came the same way. -/
def marked (mark : Mark) (s : List Char) : Marked := s.map (·, mark)

/-! ## Channels -/

def Channels.redirect (channels : Channels) (channel : Nat) (sink : Sink) : Channels :=
  match channel with
  | 1 => { channels with standard := sink }
  | 2 => { channels with error := sink }
  | _ => channels

/-- Where a channel that is named by a digit leads; a dash closes it. -/
def Channels.named (channels : Channels) (name : List Char) : Sink :=
  match name with
  | ['1'] => channels.standard
  | ['2'] => channels.error
  | _ => .nowhere

/-! ## Commands -/

def commandName (name : List Char) : String :=
  let text := String.ofList name
  if text = "/bin/cat" ∨ text = "/usr/bin/cat" then "cat" else text

def Machine.cannotOpen (m : Machine) (channels : Channels) (verb : String) (path : List Char)
    (e : OsError) : Machine :=
  let reason := match e with
    | .notFound => if verb = "create" then "Directory nonexistent" else "No such file"
    | e => (e.message.splitOn " (os").headD ""
  (m.put channels.error (Builtin.complaint m
    ("cannot " ++ verb ++ " " ++ Machine.pathOf path ++ ": " ++ reason))).ended 2

/-- Runs the command that some fields name. -/
def call (channels : Channels) (fields : List (List Char)) (m : Machine) : Flow × Machine :=
  match fields with
  | [] => (.next, m)
  | ['e', 'x', 'e', 'c'] :: [] => (.next, m.ended 0)
  | ['e', 'x', 'e', 'c'] :: name :: arguments => (.exit, (call channels (name :: arguments) m).2)
  | name :: arguments =>
    match Builtin.run? channels (commandName name) arguments m with
    | some r => r
    | none =>
      (.next, (m.put channels.error
        (Builtin.complaint m (Machine.pathOf name ++ ": not found"))).ended 127)

/-- A failed command ends a strict script, unless its outcome is being asked for. -/
def judged (asked : Bool) (r : Flow × Machine) : Flow × Machine :=
  match r with
  | (.next, m) => if m.strict && !asked && m.status != 0 then (.exit, m) else (.next, m)
  | r => r

/-- What follows, if a script goes on. -/
def andThen (r : Flow × Machine) (k : Machine → Flow × Machine) : Flow × Machine :=
  match r with
  | (.next, m) => k m
  | r => r

mutual

def expandPart : Nat → Channels → Part → Machine → Marked × Machine
  | 0, _, _, m => ([], m)
  | fuel + 1, channels, part, m =>
    let mark (q : Bool) : Mark := if q then .quoted else .expanded
    match part with
    | .text q s => (marked (if q then .quoted else .plain) s, m)
    | .variable q name => (marked (mark q) (m.value name), m)
    | .output q script =>
      match parse? script with
      | none => ([], m.ended 2)
      | some c =>
        let (_, after) := run fuel false { channels with standard := .standard } c
          { m with standard := [] }
        (marked (mark q) (Text.dropTrailing (· == '\n') after.standard),
          { after with standard := m.standard, bindings := m.bindings, arguments := m.arguments })

def expandWord : Nat → Channels → Word → Machine → Marked × Machine
  | 0, _, _, m | _, _, [], m => ([], m)
  | fuel + 1, channels, part :: w, m =>
    let (s, m) := expandPart fuel channels part m
    let (rest, m) := expandWord fuel channels w m
    (s ++ rest, m)

def expandFields : Nat → Channels → List Word → Machine → List (List Char) × Machine
  | 0, _, _, m | _, _, [], m => ([], m)
  | fuel + 1, channels, w :: ws, m =>
    let (s, m) := expandWord fuel channels w m
    let (rest, m) := expandFields fuel channels ws m
    (fieldsOf w s ++ rest, m)

/-- The machine with some variables set. -/
def assignAll : Nat → Channels → List (List Char × Word) → Machine → Machine
  | 0, _, _, m | _, _, [], m => m
  | fuel + 1, channels, (name, w) :: rest, m =>
    let (s, m) := expandWord fuel channels w m
    assignAll fuel channels rest (m.assign name (s.map (·.1)))

/-- The channels after some redirections, and the machine; no channels if a file could not be
opened. -/
def redirectAll : Nat → Channels → List Redirection → Machine → Option Channels × Machine
  | 0, channels, _, m | _, channels, [], m => (some channels, m)
  | fuel + 1, channels, r :: rest, m =>
    match r with
    | .document _ body =>
      let (s, m) := expandWord fuel channels body m
      redirectAll fuel channels rest { m with input := s.map (·.1) }
    | .input _ file =>
      let (s, m) := expandWord fuel channels file m
      let path := s.map (·.1)
      match m.contents (Machine.pathOf path) with
      | .ok s => redirectAll fuel channels rest { m with input := s }
      | .error e => (none, m.cannotOpen channels "open" path e)
    | .output channel append file =>
      let (s, m) := expandWord fuel channels file m
      let path := s.map (·.1)
      match m.openOutput append (Machine.pathOf path) with
      | .ok (sink, m) => redirectAll fuel (channels.redirect channel sink) rest m
      | .error e => (none, m.cannotOpen channels "create" path e)
    | .copy channel other =>
      let (s, m) := expandWord fuel channels other m
      redirectAll fuel (channels.redirect channel (channels.named (s.map (·.1)))) rest m

/-- The first arm with a pattern that matches, and its outcome. -/
def choose : Nat → Bool → Channels → List Char → List (List Word × Command) → Machine →
    Flow × Machine
  | 0, _, _, _, _, m | _, _, _, _, [], m => (.next, m.ended 0)
  | fuel + 1, asked, channels, subject, (patterns, body) :: arms, m =>
    match patterns with
    | [] => choose fuel asked channels subject arms m
    | p :: ps =>
      let (pattern, m) := expandWord fuel channels p m
      if Pattern.isMatch pattern subject then run fuel asked channels body (m.ended 0)
      else choose fuel asked channels subject ((ps, body) :: arms) m

def turns : Nat → Bool → Channels → List Char → Command → List (List Char) → Machine →
    Flow × Machine
  | 0, _, _, _, _, _, m => (.exit, m)
  | _, _, _, _, _, [], m => (.next, m)
  | fuel + 1, asked, channels, name, body, field :: fields, m =>
    andThen (run fuel asked channels body (m.assign name field))
      (turns fuel asked channels name body fields)

/-- Runs a command. `asked` says that its outcome is being asked for. -/
def run : Nat → Bool → Channels → Command → Machine → Flow × Machine
  | 0, _, _, _, m => (.exit, m)
  | fuel + 1, asked, channels, c, m =>
    match c with
    | .nothing => (.next, m)
    | .simple line assignments words redirections =>
      let (fields, m) := expandFields fuel channels words { m with line }
      let outer := m
      let m := assignAll fuel channels assignments m
      match redirectAll fuel channels redirections m with
      | (none, m) => judged asked (.next, { m with input := outer.input })
      | (some inner, m) =>
        let (flow, m) := call inner fields m
        let m := if redirections.any (fun | .input .. | .document .. => true | _ => false) then
          { m with input := outer.input } else m
        let m := if assignments.isEmpty then m else { m with bindings := outer.bindings }
        judged asked (flow, m)
    | .bare line assignments redirections =>
      let m := assignAll fuel channels assignments { m.ended 0 with line }
      match redirectAll fuel channels redirections m with
      | (none, m) => judged asked (.next, m)
      | (some _, after) => judged asked (.next, { after with input := m.input })
    | .sequence first second =>
      andThen (run fuel asked channels first m) (run fuel asked channels second)
    | .both first second =>
      andThen (run fuel true channels first m) fun m =>
        if m.status = 0 then run fuel asked channels second m else (.next, m)
    | .either first second =>
      andThen (run fuel true channels first m) fun m =>
        if m.status = 0 then (.next, m) else run fuel asked channels second m
    | .negated c =>
      andThen (run fuel true channels c m) fun m => (.next, m.ended (if m.status = 0 then 1 else 0))
    | .pipe first second =>
      let (_, between) := run fuel true { channels with standard := .standard } first
        { m with standard := [] }
      let (_, after) := run fuel asked channels second
        { between with standard := m.standard, input := between.standard, bindings := m.bindings }
      judged asked (.next, { after with bindings := m.bindings, input := between.input })
    | .branch condition yes no =>
      andThen (run fuel true channels condition m) fun m =>
        if m.status = 0 then run fuel asked channels yes m
        else run fuel asked channels no (m.ended 0)
    | .choice subject arms =>
      let (s, m) := expandWord fuel channels subject m
      choose fuel asked channels (s.map (·.1)) arms m
    | .loop outcome condition body =>
      andThen (run fuel true channels condition m) fun m =>
        if (m.status == 0) == outcome then
          andThen (run fuel asked channels body m) (run fuel asked channels c)
        else (.next, m.ended 0)
    | .each name words body =>
      let (fields, m) := expandFields fuel channels words m
      turns fuel asked channels name body fields (m.ended 0)
    | .group apart body redirections =>
      match redirectAll fuel channels redirections m with
      | (none, after) => (.next, { after with input := m.input })
      | (some inner, after) =>
        let (flow, after) := run fuel asked inner body after
        let after := if redirections.any (fun | .input .. | .document .. => true | _ => false) then
          { after with input := m.input } else after
        if apart then
          let flow := match flow with
            | .exit => Flow.next
            | flow => flow
          (flow, { after with bindings := m.bindings, arguments := m.arguments })
        else (flow, after)

end

/-! ## Programs -/

/-- How a program ended, and what it wrote. -/
structure Ending where
  /-- The exit status, or the signal that ended it. -/
  status : Except Nat Nat
  standard : List UInt8
  error : List UInt8
  disk : Disk

def fuelFor (script input : List Char) : Nat := 1000 + 10 * script.length + input.length

/-- Runs a script; in a strict one a failed command is the last one. -/
def execute (script : List UInt8) (strict : Bool) (name : String) (arguments : List String)
    (input : List UInt8) (disk : Disk) : Ending :=
  let octets (s : String) := Text.Octets.ofBytes (Text.utf8 s.toList)
  let m : Machine :=
    { disk := disk, input := Text.Octets.ofBytes input, name := octets name,
      arguments := arguments.map octets, strict := strict }
  let source := Text.Octets.ofBytes script
  let (flow, m) := match parse? source with
    | some c => run (fuelFor source m.input) false {} c m
    | none => (.exit, (m.put .error (Builtin.complaint m "Syntax error")).ended 2)
  { status := match flow with
      | .killed n => .error n
      | _ => .ok m.status
    standard := Text.Octets.bytes m.standard
    error := Text.Octets.bytes m.error
    disk := m.disk }

end BundleLedger.Shell
