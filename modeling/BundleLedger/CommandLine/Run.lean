import BundleLedger.CommandLine.Invocation
import BundleLedger.Engine.Command
import BundleLedger.Session.Operations

/-!
# Running a command line

What a command line does to the files, what is written, and the exit code: zero when all went well,
one for a failure, two for a command line that asks for nothing that there is. The loader
configuration is saved after the command, and only if that succeeded.

A report of a failure says what was being done, and the causes below it. A single cause stands by
itself, several are numbered; further lines of a cause are set in as far as its first.
-/
namespace BundleLedger.CommandLine

/-! ## Reports of failures -/

/-- What was being done, and why it failed, the nearest cause first. -/
structure Report where
  task : String
  causes : List String
  deriving DecidableEq, Repr

namespace Report

def ofFailure (task : String) (e : Failure) : Report := ⟨task, e.message :: e.cause?.toList⟩

/-- The blanks in front of the further lines of a cause. -/
def margin (numbered : Bool) : List Char := List.replicate (if numbered then 7 else 4) ' '

/-- What stands in front of a cause. -/
def mark (numbered : Bool) (number : Nat) : List Char :=
  if numbered then
    let digits := (toString number).toList
    List.replicate (5 - digits.length) ' ' ++ digits ++ [':', ' ']
  else margin false

def causeText (numbered : Bool) (number : Nat) (cause : String) : List Char :=
  '\n' :: mark numbered number ++
    Text.join ('\n' :: margin numbered) (Text.split '\n' cause.toList)

/-- What is written. -/
def text (r : Report) : String :=
  let numbered := decide (1 < r.causes.length)
  let causes := (r.causes.zipIdx.map fun (cause, n) => causeText numbered n cause).flatten
  "Error: " ++ r.task ++ (if r.causes.isEmpty then "" else "\n\nCaused by:") ++
    String.ofList causes ++ "\n"

end Report

/-! ## Running a command -/

/-- What a run leaves behind. -/
structure Output where
  code : Nat
  standard : String
  error : String
  disk : Disk

/-- What is done, what is printed if it succeeds, and what is left. -/
abbrev Performance (ε : Type) := Except Report String × Session ε

variable {ε : Type}

def versionText : String := "depbundler 0.1.0\n"

def targetLine (t : Target) : String := "✓ " ++ t.id ++ " -> " ++ t.path ++ "\n"

def targetLines (ts : List Target) : String :=
  if ts.isEmpty then "Nothing to bundle.\n" else String.join (ts.map targetLine)

/-- What is printed about an operation, or the report of its failure. -/
def shown {α : Type} (task : String) (print : α → String) : Outcome ε α → Performance ε
  | (.ok a, s) => (.ok (print a), s)
  | (.error e, s) => (.error (.ofFailure task e), s)

/-- What is done after something that succeeded; its text follows. -/
def Performance.andThen (p : Performance ε) (next : Session ε → Performance ε) : Performance ε :=
  match p with
  | (.error r, s) => (.error r, s)
  | (.ok text, s) =>
    match next s with
    | (.error r, s) => (.error r, s)
    | (.ok more, s) => (.ok (text ++ more), s)

namespace Command

/-- What a command is doing, in words. -/
def task : Command → String
  | .component entry => "bundling component " ++ entry
  | .components _ saveAs => "bundling components into " ++ saveAs
  | .bundle _ _ saveAs => "bundling " ++ saveAs
  | .package name => "bundling package " ++ name
  | .packages names _ => "bundling packages " ++ ", ".intercalate names
  | .remainingComponents => "bundling remaining components"
  | .remainingPackages => "bundling remaining packages"
  | .all => "bundling everything"
  | .showConfig => "showing the configuration"

/-- The lines about a bundle that may have been written. -/
def targetText (t : Option Target) : String := targetLines t.toList

/-- Carries a command out. -/
def run (c : Command) (s : Session ε) : Performance ε :=
  match c with
  | .component entry => shown c.task targetText (s.component entry)
  | .components roots saveAs => shown c.task targetText (s.components roots saveAs)
  | .bundle roots names saveAs => shown c.task targetText (s.bundle roots names saveAs)
  | .package name => shown c.task targetText (s.package name)
  | .packages names saveAs => shown c.task targetText (s.packages names saveAs)
  | .remainingComponents => shown c.task targetLines s.remainingComponents
  | .remainingPackages => shown c.task targetLines s.remainingPackages
  | .all =>
    (shown remainingPackages.task targetLines s.remainingPackages).andThen fun s =>
      shown remainingComponents.task targetLines s.remainingComponents
  | .showConfig => (.ok s.render, s)

end Command

def save (s : Session ε) : Performance ε :=
  shown "saving loader configuration"
    (fun path => "✓ Loader configuration saved to " ++ path ++ "\n") s.saveConfig

/-- Carries a command out and then saves the loader configuration if asked to. What the command
printed stays printed when saving fails. -/
def perform (i : Invocation) (s : Session ε) : Output :=
  match i.command.run s with
  | (.error r, s) => ⟨1, "", r.text, s.disk⟩
  | (.ok text, s) =>
    if !i.saves then ⟨0, text, "", s.disk⟩
    else match save s with
      | (.error r, s) => ⟨1, text, r.text, s.disk⟩
      | (.ok more, s) => ⟨0, text ++ more, "", s.disk⟩

/-- The options of a command line: the defaults, the options file over them, and the switches over
both. -/
def loadOptions (env : Environment) (disk : Disk) (i : Invocation) : Except Report Options :=
  let load (path : String) : Except Report OptionLayer :=
    match OptionLayer.load env disk path with
    | .ok layer => .ok layer
    | .error e => .error ⟨"loading " ++ path, [e.message]⟩
  let file : Except Report OptionLayer := match i.config with
    | some path => load path
    | none =>
      if disk.exists? OptionLayer.defaultFile then load OptionLayer.defaultFile else .ok {}
  file.map fun layer => (({} : Options).override layer).override i.overrides

/-- The directories in which programs are looked for. -/
def searchPath (env : Environment) : List String :=
  match env.get? "PATH" with
  | some dirs => (Text.split ':' dirs.toList).map String.ofList
  | none => []

def openSession (env : Environment) (disk : Disk) (options : Options) :
    Except Failure (Session Unit) :=
  match LoaderConfig.load disk options.systemJsConfig with
  | .error e => .error (.config e)
  | .ok config =>
    match Program.find? disk (searchPath env) options.engine with
    | none => .error (.engine (.notFound options.engine))
    | some program =>
      let sent := config.forEngine (String.ofList disk.workingPath) options.baseUrl
      .ok (Session.start options (Engine.ofProgram program sent) () config disk)

/-- What is written about a command line that asks for nothing that there is. -/
def refused (disk : Disk) : Refusal → Output
  | .versionWanted => ⟨0, versionText, "", disk⟩
  | .helpWanted => ⟨0, "usage: depbundler [OPTIONS] <COMMAND>\n", "", disk⟩
  | _ => ⟨2, "", "usage: depbundler [OPTIONS] <COMMAND>\n", disk⟩

/-- Runs a command line (spec §10.4). -/
def run (env : Environment) (disk : Disk) (arguments : List String) : Output :=
  match Invocation.read arguments with
  | .error refusal => refused disk refusal
  | .ok i =>
    match loadOptions env disk i with
    | .error r => ⟨1, "", r.text, disk⟩
    | .ok options =>
      match openSession env disk options with
      | .error e => ⟨1, "", (Report.ofFailure "initializing bundler" e).text, disk⟩
      | .ok s => perform i s

end BundleLedger.CommandLine
