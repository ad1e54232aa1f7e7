import BundleLedger.Entries
import BundleLedger.Text.Search

/-!
# Arguments

How the arguments of a program are read. A form says which switches may stand and how many operands.
A long switch is written `--name`, with its value after a `=` or as the next argument; a short one
`-n`, with its value right behind it or as the next argument, and several may share a dash. After
`--` all arguments are operands.

A value that is the next argument is only looked at when the argument after it has been seen, so that
an unknown switch is reported before a fault of the value in front of it.
-/
namespace BundleLedger.CommandLine

/-- What a switch does. -/
inductive Action where
  /-- It takes a text, and stands at most once. -/
  | text
  /-- It takes a path, which is not empty, and stands at most once. -/
  | path
  /-- It takes a text each time that it stands. -/
  | texts
  /-- It is turned on, and stands at most once. -/
  | flag
  /-- It asks for help. -/
  | help
  /-- It asks for the version. -/
  | version
  deriving DecidableEq, Repr

def Action.takesValue : Action → Bool
  | .text | .path | .texts => true
  | .flag | .help | .version => false

structure Switch where
  name : String
  short : Option Char := none
  action : Action
  deriving DecidableEq, Repr

/-- How many operands a form has. -/
inductive Operands where
  | none
  | one
  | many
  deriving DecidableEq, Repr

/-- What may stand on a command line. -/
structure Form where
  switches : List Switch := []
  operands : Operands := .none
  /-- The switches that have to stand. -/
  required : List String := []
  deriving Repr

/-- Why arguments make no command. -/
inductive Refusal where
  /-- Nothing was given at all. -/
  | nothingGiven
  | missingArgument
  | missingCommand
  | unknownArgument
  | unknownCommand
  | invalidValue
  /-- A switch has a value but takes none. -/
  | surplusValue
  /-- A switch stands twice that may stand once. -/
  | conflict
  | helpWanted
  | versionWanted
  deriving DecidableEq, Repr

/-- What has been read of a command line. -/
structure Reading where
  /-- The values of each switch that stood. -/
  given : Entries (List String) := []
  operands : List String := []
  /-- The switch that stood last, with the value that came after it, if one came. -/
  pending : Option (Switch × Option String) := none
  deriving Repr

namespace Reading

def values (r : Reading) (name : String) : List String := (Entries.get? r.given name).getD []

/-- Whether a switch stood. -/
def has (r : Reading) (name : String) : Bool := Entries.has r.given name

def value? (r : Reading) (name : String) : Option String := (r.values name).head?

/-- The reading with a value for a switch that stands at most once. -/
def once (r : Reading) (switch : Switch) (values : List String) : Except Refusal Reading :=
  if r.has switch.name then .error .conflict
  else .ok { r with given := Entries.put r.given switch.name values }

/-- The reading with one more switch and its value. -/
def give (r : Reading) (switch : Switch) (value : String) : Except Refusal Reading :=
  match switch.action with
  | .text => r.once switch [value]
  | .path => if value = "" ∧ !r.has switch.name then .error .invalidValue else r.once switch [value]
  | .texts =>
    .ok { r with given := Entries.put r.given switch.name (r.values switch.name ++ [value]) }
  | .flag | .help | .version => .error .surplusValue

/-- The reading after the switch that is pending was taken in. -/
def settled (r : Reading) : Except Refusal Reading :=
  match r.pending with
  | none => .ok r
  | some (_, none) => .error .invalidValue
  | some (switch, some value) => { r with pending := none }.give switch value

/-- The reading with one more switch that takes no value. -/
def turnOn (r : Reading) (switch : Switch) : Except Refusal Reading := do
  let r ← r.settled
  match switch.action with
  | .help => .error .helpWanted
  | .version => .error .versionWanted
  | _ => r.once switch []

/-- The reading with a switch that takes the next argument. -/
def await (r : Reading) (switch : Switch) : Except Refusal Reading := do
  return { ← r.settled with pending := some (switch, none) }

def attach (r : Reading) (switch : Switch) (value : String) : Except Refusal Reading := do
  (← r.settled).give switch value

/-- Whether a switch waits for the next argument. -/
def isWaiting (r : Reading) : Bool :=
  match r.pending with
  | some (_, none) => true
  | _ => false

/-- The reading with the value that a switch waits for. -/
def supply (r : Reading) (value : String) : Reading :=
  { r with pending := r.pending.map fun (switch, _) => (switch, some value) }

end Reading

namespace Form

def long (form : Form) (argument : String) (r : Reading) : Except Refusal Reading :=
  let (name, value?) := match Text.cut? '=' argument.toList with
    | some (name, value) => (String.ofList name, some (String.ofList value))
    | none => (argument, none)
  match form.switches.find? (·.name == name), value? with
  | none, _ => .error .unknownArgument
  | some switch, none => if switch.action.takesValue then r.await switch else r.turnOn switch
  | some switch, some value =>
    if switch.action.takesValue then r.attach switch value else .error .surplusValue

/-- Reads the short switches of one argument, from after its dash. -/
def shorts (form : Form) : List Char → Reading → Except Refusal Reading
  | [], r => .ok r
  | c :: rest, r =>
    match form.switches.find? (·.short == some c) with
    | none => .error .unknownArgument
    | some switch =>
      if !switch.action.takesValue then do shorts form rest (← r.turnOn switch)
      else match rest with
        | [] => r.await switch
        | '=' :: value => r.attach switch (String.ofList value)
        | value => r.attach switch (String.ofList value)

def operand (form : Form) (argument : String) (r : Reading) : Except Refusal Reading := do
  if form.operands = .none ∨ (form.operands = .one ∧ r.operands ≠ []) then .error .unknownArgument
  else
    let r ← r.settled
    return { r with operands := r.operands ++ [argument] }

/-- Reads an argument that starts with a dash as the switches that it holds; `none` where it is a
lone dash, or none starts it. -/
def switches? (form : Form) (argument : String) (r : Reading) : Option (Except Refusal Reading) :=
  match argument.toList with
  | '-' :: '-' :: rest => some (form.long (String.ofList rest) r)
  | ['-'] => none
  | '-' :: rest => some (form.shorts rest r)
  | _ => none

/-- What is wrong with a complete reading, if anything is. -/
def check (form : Form) (r : Reading) : Except Refusal Reading :=
  if (form.operands ≠ .none ∧ r.operands = []) ∨ !form.required.all r.has then
    .error .missingArgument
  else .ok r

def read (form : Form) (literal : Bool) : List String → Reading → Except Refusal Reading
  | [], r => do form.check (← r.settled)
  | argument :: rest, r =>
    if literal then do read form literal rest (← form.operand argument r)
    else if argument = "--" then read form true rest r
    else match form.switches? argument r with
      | some result => do read form false rest (← result)
      | none =>
        if r.isWaiting then read form false rest (r.supply argument)
        else do read form false rest (← form.operand argument r)

end Form

end BundleLedger.CommandLine
