import BundleLedger.CommandLine.Grammar

/-!
# Commands

What a command line can ask for, and how it is written.

Results:

* `savesByItself_iff`: only `all` saves the loader configuration without being told to.
-/
namespace BundleLedger.CommandLine

/-- What a command line asks for (spec §10.4). -/
inductive Command where
  | component (entry : String)
  | components (roots : List String) (saveAs : String)
  | bundle (components packages : List String) (saveAs : String)
  | package (name : String)
  | packages (names : List String) (saveAs : Option String)
  | remainingComponents
  | remainingPackages
  | all
  | showConfig
  deriving DecidableEq, Repr

def helpSwitch : Switch := ⟨"help", some 'h', .help⟩

def saveAsName : String := "save-as"

def saveAsSwitch : Switch := ⟨saveAsName, none, .text⟩

namespace Command

def forms : List (String × Form) :=
  [("component", { switches := [helpSwitch], operands := .one }),
    ("components",
      { switches := [saveAsSwitch, helpSwitch], operands := .many, required := [saveAsName] }),
    ("bundle",
      { switches := [⟨"component", some 'c', .texts⟩, ⟨"package", some 'p', .texts⟩, saveAsSwitch,
          helpSwitch]
        required := [saveAsName] }),
    ("package", { switches := [helpSwitch], operands := .one }),
    ("packages", { switches := [saveAsSwitch, helpSwitch], operands := .many }),
    ("remaining-components", { switches := [helpSwitch] }),
    ("remaining-packages", { switches := [helpSwitch] }),
    ("all", { switches := [helpSwitch] }),
    ("show-config", { switches := [helpSwitch] })]

def ofReading? (name : String) (r : Reading) : Option Command :=
  let operand := r.operands.headD ""
  let saveAs := (r.value? saveAsName).getD ""
  match name with
  | "component" => some (.component operand)
  | "components" => some (.components r.operands saveAs)
  | "bundle" => some (.bundle (r.values "component") (r.values "package") saveAs)
  | "package" => some (.package operand)
  | "packages" => some (.packages r.operands (r.value? saveAsName))
  | "remaining-components" => some .remainingComponents
  | "remaining-packages" => some .remainingPackages
  | "all" => some .all
  | "show-config" => some .showConfig
  | _ => none

/-- Whether a command saves the loader configuration without being told to. -/
def savesByItself : Command → Bool
  | .all => true
  | _ => false

theorem savesByItself_iff (c : Command) : c.savesByItself = true ↔ c = .all := by
  cases c <;> simp [savesByItself]

end Command

/-! ## Whole command lines -/

def helpWord : String := "help"

def isCommand (argument : String) : Bool := Command.forms.any (·.1 == argument)

def helpFor : List String → Refusal
  | [] => .helpWanted
  | [name] => if name = helpWord ∨ isCommand name then .helpWanted else .unknownCommand
  | _ => .unknownCommand

def commandOf (name : String) (arguments : List String) : Except Refusal Command :=
  match Command.forms.lookup name with
  | none => .error .unknownCommand
  | some form => do
    match Command.ofReading? name (← form.read false arguments {}) with
    | some command => .ok command
    | none => .error .unknownCommand

/-- Reads the switches before the command, with the form that says which there are, and the
command. `literal` is set after a `--`, where no command can follow. -/
def readFrom (form : Form) (literal : Bool) :
    List String → Reading → Except Refusal (Reading × Command)
  | [], r => do
    let r ← r.settled
    .error (if r.given.isEmpty then .nothingGiven else .missingCommand)
  | argument :: rest, r =>
    if literal then
      .error (if argument = helpWord ∨ isCommand argument then .unknownArgument else .unknownCommand)
    else if argument = helpWord ∧ !r.isWaiting then .error (helpFor rest)
    else if isCommand argument ∧ !r.isWaiting then do
      let command ← commandOf argument rest
      return (← r.settled, command)
    else if argument = "--" then readFrom form true rest r
    else match form.switches? argument r with
      | some result => do readFrom form false rest (← result)
      | none =>
        if r.isWaiting then readFrom form false rest (r.supply argument)
        else .error .unknownCommand

def Command.read (arguments : List String) : Except Refusal Command := do
  return (← readFrom { switches := [helpSwitch] } false arguments {}).2

end BundleLedger.CommandLine
